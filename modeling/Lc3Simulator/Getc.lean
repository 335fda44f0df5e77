import Lc3Simulator.OsCalls

/-!
# Waiting for a character

GETC reads the status of the keyboard until it is ready, and then its data. In a run the terminal is
asked for a character after every instruction, so characters come while GETC waits, and more may
come before it reads. It returns the last of them. If nothing is ever typed it waits for ever.

What comes from the terminal is arbitrary: `listen` is what one round does to the keyboard and the
terminal, and everything is said by how often that was done.

## Main definitions

* `Listening` — a computer that only listens
* `GotChar` — what GETC leaves to the program that called it

## Main results

* `getc_returns`, `getc_waits` — the routine
* `getc_reads` — the call on the simulator
-/

namespace Lc3Simulator

open Interaction Isa Progress Transition

/-- The processor status but for the condition codes. -/
def statusOf (registers : Registers) : BitVec 13 := (registers .psr).extractLsb' 3 13

section Getc

variable {ι : Type} {io : DeviceIo ι}

/-- Only `R0`, the PC, the condition codes and what was typed are new. -/
structure Listening (c₀ : Computer ι) (registers₀ : Registers) (x : KeyboardData × ι)
    (c : Computer ι) : Prop where
  registers : ∀ r ∉ [Lc3Reg.r0, .pc, .psr], c.cpu.registers r = registers₀ r
  status : statusOf c.cpu.registers = statusOf registers₀
  lines : c.cpu.LinesLow
  memory : c.console.memory = c₀.console.memory
  display : c.console.display = c₀.console.display
  typed : (c.console.keyboard, c.console.terminal) = x
  silenced : Silenced c.console

/-- The routines may run. -/
structure GetcReady (c : Computer ι) : Prop where
  clock : clockEnabled (c.console.memory mcrAddr) = true
  os : OsLoaded c.console.memory

variable {c₀ c : Computer ι} {registers : Registers} {x : KeyboardData × ι}

variable (io) in
/-- One instruction, and what is typed after it. -/
theorem Listening.round (h : Listening c₀ registers x c) (hready : GetcReady c₀)
    {program : Registers → BusProg Registers} {registers₁ registers' : Registers}
    {keyboard : KeyboardData} (hpc : Ordinary (c.cpu.registers .pc))
    (hprogram : instruction (c.console.memory (c.cpu.registers .pc)) = some program)
    (heval : (program (fetched c.cpu.registers)).eval (consoleResponder io) c.console =
      (registers', { c.console with keyboard }))
    (hregisters : ∀ r ∉ [Lc3Reg.r0, .pc, .psr], registers' r = registers₁ r)
    (hstatus : statusOf registers' = statusOf registers₁)
    (henable : interruptEnableBitOn keyboard.kbsr = false) :
    ∃ c', c.round io (Computer.afterTick io) = some c' ∧ c'.cpu.registers = registers' ∧
      Listening c₀ registers₁ (listen io (keyboard, x.2)) c' := by
  have hclock : clockEnabled (c.console.memory mcrAddr) = true := by
    rw [h.memory]
    exact hready.clock
  have htick := tick_of_instruction h.lines hclock hpc hprogram heval
  have hon : (c.tick io).1 = true := by rw [htick]; exact hclock
  have hsilenced : Silenced { c.console with keyboard } := ⟨h.silenced.1, henable⟩
  obtain ⟨hinput, hsilenced'⟩ := checkInput_of_silenced io hsilenced
  have hround : c.round io (Computer.afterTick io) = some ⟨c.cpu.withRegisters registers',
      ({ c.console with keyboard } : Console ι).checkInput io⟩ := by
    rw [Computer.round, if_pos hon, htick, afterTick_of_silenced hsilenced]
  have hterminal : c.console.terminal = x.2 := congrArg Prod.snd h.typed
  refine ⟨_, hround, rfl, hregisters, hstatus, h.lines, ?_, ?_, ?_, hsilenced'⟩
  all_goals
    show _ = _
    rw [hinput]
  · exact h.memory
  · exact h.display
  · show (listen io (keyboard, c.console.terminal)) = _
    rw [hterminal]

/-- What LDI R0 leaves in the registers. -/
structure Loaded (regs : Registers) (value : Word) (regs' : Registers) : Prop where
  r0 : regs' .r0 = value
  pc : regs' .pc = regs .pc + 1
  codes : (regs' .psr).extractLsb' 0 3 = condition value
  status : statusOf regs' = statusOf regs
  registers : ∀ r ∉ [Lc3Reg.r0, .pc, .psr], regs' r = regs r

theorem loaded_writeResult (regs : Registers) (value : Word) :
    Loaded regs value (writeResult (fetched regs) 0 value) := by
  have hreg : reg 0#3 = .r0 := rfl
  refine ⟨?_, ?_, ?_, ?_, fun r hr => ?_⟩
  · simp [writeResult, hreg]
  · simp [writeResult, fetched, hreg]
  · simpa [writeResult, withCondition] using BitVec.extractLsb'_append_eq_right
  · simpa [statusOf, writeResult, withCondition, fetched] using BitVec.extractLsb'_append_eq_left
  · simp only [List.mem_cons, List.not_mem_nil, or_false, not_or] at hr
    simp [writeResult, fetched, hreg, hr]

/-- LDI R0, where the pointer is in memory. -/
theorem eval_ldi {regs : Registers} {console console' : Console ι} {offset : BitVec 9}
    {address pointer value : Word} (haddress : regs .pc + 1 + offset.signExtend 16 = address)
    (hordinary : Ordinary address) (hpointer : console.memory address = pointer)
    (hread : console.read pointer = (value, console')) :
    ((DataInstr.ldi 0 offset).execute (fetched regs)).eval (consoleResponder io) console =
      (writeResult (fetched regs) 0 value, console') := by
  have hfirst : console.read (fetched regs .pc + offset.signExtend 16) = (pointer, console) := by
    rw [fetched, Function.update_self, haddress, Console.read_ordinary hordinary, hpointer]
  simp [DataInstr.execute, busAccessRead, Prog.send, consoleResponder, hfirst, hread]

/-! ### Polling -/

variable (io) in
/-- LDI R0 in the routine. -/
theorem Listening.load (h : Listening c₀ registers x c) (hready : GetcReady c₀) (i : Fin 30)
    (hpc : c.cpu.registers .pc = getcRoutine + BitVec.ofNat 16 i) {offset : BitVec 9}
    {address pointer value : Word} {keyboard : KeyboardData}
    (hdecode : DataInstr.decode (osRoutines.get i) = some (.ldi 0 offset))
    (haddress : getcRoutine + BitVec.ofNat 16 i + 1 + offset.signExtend 16 = address)
    (hordinary : Ordinary (getcRoutine + BitVec.ofNat 16 i) ∧ Ordinary address)
    (hpointer : c₀.console.memory address = pointer)
    (hread : c.console.read pointer = (value, { c.console with keyboard }))
    (henable : interruptEnableBitOn keyboard.kbsr = false) :
    ∃ c', c.round io (Computer.afterTick io) = some c' ∧
      Loaded c.cpu.registers value c'.cpu.registers ∧
      Listening c₀ registers (listen io (keyboard, x.2)) c' := by
  have hword : c.console.memory (c.cpu.registers .pc) = osRoutines.get i := by
    rw [h.memory, hpc]
    exact hready.os.routines i
  have hprogram : instruction (c.console.memory (c.cpu.registers .pc)) =
      some fun regs => (DataInstr.ldi 0 offset).execute regs := by
    rw [hword, instruction, hdecode]
  have heval : ((DataInstr.ldi 0 offset).execute (fetched c.cpu.registers)).eval
      (consoleResponder io) c.console =
        (writeResult (fetched c.cpu.registers) 0 value, { c.console with keyboard }) :=
    eval_ldi (by rw [hpc]; exact haddress) hordinary.2 (by rw [h.memory]; exact hpointer) hread
  have hloaded := loaded_writeResult c.cpu.registers value
  obtain ⟨c', hround, hregisters, hlisten⟩ := h.round io hready (by rw [hpc]; exact hordinary.1)
    hprogram heval (fun r hr => (hloaded.registers r hr).trans (h.registers r hr))
    (hloaded.status.trans h.status) henable
  exact ⟨c', hround, hregisters ▸ hloaded, hlisten⟩

variable (io) in
/-- A jump in the routine. -/
theorem Listening.jump (h : Listening c₀ registers x c) (hready : GetcReady c₀) (i : Fin 30)
    (hpc : c.cpu.registers .pc = getcRoutine + BitVec.ofNat 16 i)
    (hordinary : Ordinary (getcRoutine + BitVec.ofNat 16 i)) {next : Registers → Registers}
    (hprogram : instruction (osRoutines.get i) = some fun regs => return next regs)
    (hnext : ∀ r ≠ .pc, next (fetched c.cpu.registers) r = c.cpu.registers r) :
    ∃ c', c.round io (Computer.afterTick io) = some c' ∧
      c'.cpu.registers = next (fetched c.cpu.registers) ∧
      Listening c₀ registers (listen io x) c' := by
  have hkeyboard : c.console.keyboard = x.1 := congrArg Prod.fst h.typed
  have hword : c.console.memory (c.cpu.registers .pc) = osRoutines.get i := by
    rw [h.memory, hpc]
    exact hready.os.routines i
  exact h.round io hready (by rw [hpc]; exact hordinary) (by rw [hword]; exact hprogram)
    (show _ = (_, { c.console with keyboard := x.1 }) by rw [← hkeyboard]; rfl)
    (fun r hr => (hnext r fun hEq => hr (by simp [hEq])).trans (h.registers r hr))
    ((congrArg (BitVec.extractLsb' 3 13) (hnext .psr (by decide))).trans h.status)
    (hkeyboard ▸ h.silenced.2)

/-- A status with the ready bit is negative, and no other is. -/
theorem condition_kbsr (kbsr : Word) :
    0b011 &&& condition kbsr ≠ 0 ↔ readyBitOn kbsr = false := by
  rw [readyBitOn_eq, condition]
  by_cases hzero : kbsr = 0
  · subst hzero
    decide
  · rw [if_neg hzero, BitVec.msb_eq_getLsbD_last]
    cases kbsr.getLsbD 15 <;> simp

variable (io) in
/-- One round of the loop: the status is looked at, and whether it was ready decides where GETC goes
on. -/
theorem Listening.poll (h : Listening c₀ registers x c) (hready : GetcReady c₀)
    (hpc : c.cpu.registers .pc = getcRoutine) :
    ∃ c₁ c₂, c.round io (Computer.afterTick io) = some c₁ ∧
      c₁.round io (Computer.afterTick io) = some c₂ ∧
      Listening c₀ registers (listen io x) c₁ ∧
      Listening c₀ registers (listen io (listen io x)) c₂ ∧
      c₂.cpu.registers .pc = if readyBitOn x.1.kbsr then 0x20D else getcRoutine := by
  have hkeyboard : c.console.keyboard = x.1 := congrArg Prod.fst h.typed
  have hread : c.console.read kbsrAddress = (x.1.kbsr, { c.console with keyboard := x.1 }) := by
    rw [Console.read, if_pos rfl, ← hkeyboard]
  obtain ⟨c₁, hround₁, hloaded, h₁⟩ := h.load io hready 0 hpc rfl rfl (by decide)
    (hready.os.routines 25) hread (hkeyboard ▸ h.silenced.2)
  have hpc₁ : c₁.cpu.registers .pc = 0x20C := by
    rw [hloaded.pc, hpc]
    rfl
  have hcodes : ((fetched c₁.cpu.registers) .psr).extractLsb' 0 3 = condition x.1.kbsr := by
    rw [fetched, Function.update_of_ne (by decide)]
    exact hloaded.codes
  have htarget : fetched c₁.cpu.registers .pc + (0x1FE#9).signExtend 16 = getcRoutine := by
    rw [fetched, Function.update_self, hpc₁]
    rfl
  -- what BRzp does to the registers
  obtain ⟨next, hnext⟩ : ∃ next : Registers → Registers, next = fun regs =>
      if 0b011 &&& (regs .psr).extractLsb' 0 3 ≠ 0 then
        Isa.jump regs (regs .pc + (0x1FE#9).signExtend 16) else regs := ⟨_, rfl⟩
  have hbranch : next (fetched c₁.cpu.registers) = if readyBitOn x.1.kbsr then
      fetched c₁.cpu.registers else Isa.jump (fetched c₁.cpu.registers) getcRoutine := by
    rw [hnext]
    simp only [hcodes, htarget, condition_kbsr]
    cases readyBitOn x.1.kbsr <;> rfl
  have hkept : ∀ r ≠ .pc, next (fetched c₁.cpu.registers) r = c₁.cpu.registers r := fun r hr => by
    rw [hbranch]
    split_ifs <;> simp [Isa.jump, fetched, hr]
  obtain ⟨c₂, hround₂, hregisters, h₂⟩ :=
    h₁.jump io hready 1 hpc₁ (by decide) (by rw [hnext]; rfl) hkept
  refine ⟨c₁, c₂, hround₁, hround₂, h₁, h₂, ?_⟩
  rw [hregisters, hbranch]
  split_ifs
  · rw [fetched, Function.update_self, hpc₁]
    rfl
  · exact Function.update_self ..

/-- The character of the keyboard is taken: it is no longer ready. -/
def taken (x : KeyboardData × ι) : KeyboardData × ι :=
  ({ x.1 with kbsr := x.1.kbsr &&& readyBitSetOff }, x.2)

variable (io) in
/-- After the loop, GETC takes the character that the keyboard has by then and returns. -/
theorem Listening.take (h : Listening c₀ registers x c) (hready : GetcReady c₀)
    (hpc : c.cpu.registers .pc = 0x20D) :
    ∃ c₁ c₂, c.round io (Computer.afterTick io) = some c₁ ∧
      c₁.round io (Computer.afterTick io) = some c₂ ∧
      Listening c₀ registers (listen io (listen io (taken x))) c₂ ∧
      c₂.cpu.registers .pc = registers .r7 ∧ c₂.cpu.registers .r0 = x.1.kbdr ∧
      (c₂.cpu.registers .psr).extractLsb' 0 3 = condition x.1.kbdr := by
  have hkeyboard : c.console.keyboard = x.1 := congrArg Prod.fst h.typed
  have hread : c.console.read kbdrAddress =
      (x.1.kbdr, { c.console with keyboard := (taken x).1 }) := by
    rw [Console.read, if_neg (by decide), if_pos rfl, hkeyboard]
    rfl
  have henable : interruptEnableBitOn (taken x).1.kbsr = false := by
    have hsilenced := h.silenced.2
    rw [hkeyboard, interruptEnableBitOn_eq] at hsilenced
    rw [taken, interruptEnableBitOn_eq, BitVec.getLsbD_and, hsilenced, Bool.false_and]
  obtain ⟨c₁, hround₁, hloaded, h₁⟩ := h.load io hready 2 hpc rfl rfl (by decide)
    (hready.os.routines 26) hread henable
  have hpc₁ : c₁.cpu.registers .pc = 0x20E := by
    rw [hloaded.pc, hpc]
    rfl
  obtain ⟨next, hnext⟩ : ∃ next : Registers → Registers, next = fun regs =>
      Isa.jump regs (regs .r7) := ⟨_, rfl⟩
  have hkept : ∀ r ≠ .pc, next (fetched c₁.cpu.registers) r = c₁.cpu.registers r := fun r hr => by
    simp [hnext, Isa.jump, fetched, hr]
  obtain ⟨c₂, hround₂, hregisters, h₂⟩ :=
    h₁.jump io hready 3 hpc₁ (by decide) (by rw [hnext]; rfl) hkept
  refine ⟨c₁, c₂, hround₁, hround₂, h₂, ?_, ?_, ?_⟩
  · rw [hregisters, hnext]
    show fetched c₁.cpu.registers .r7 = _
    rw [fetched, Function.update_of_ne (by decide)]
    exact h₁.registers .r7 (by decide)
  · rw [hregisters, hnext]
    exact hloaded.r0
  · rw [hregisters, hnext]
    exact hloaded.codes

/-! ### The routine -/

/-- A character that is ready stays ready. -/
theorem readyBitOn_listen {x : KeyboardData × ι} (h : readyBitOn x.1.kbsr = true) :
    readyBitOn (listen io x).1.kbsr = true := by
  rw [listen]
  dsimp only
  split_ifs
  · exact (kbsr_input _).1
  · exact h

/-- What GETC has got, `m` rounds after it was called. -/
structure GotChar (io : DeviceIo ι) (c₀ : Computer ι) (registers : Registers)
    (x : KeyboardData × ι) (m : ℕ) (c : Computer ι) : Prop where
  ready : readyBitOn ((listen io)^[m] x).1.kbsr = true
  r0 : c.cpu.registers .r0 = ((listen io)^[m] x).1.kbdr
  codes : (c.cpu.registers .psr).extractLsb' 0 3 = condition ((listen io)^[m] x).1.kbdr
  pc : c.cpu.registers .pc = registers .r7
  rest : Listening c₀ registers ((listen io)^[2] (taken ((listen io)^[m] x))) c

/-- **GETC returns** the last character typed before it reads, if any is typed at all. -/
theorem getc_returns {k n : ℕ} (h : Listening c₀ registers ((listen io)^[k] x) c)
    (hready : GetcReady c₀) (hpc : c.cpu.registers .pc = getcRoutine)
    (htyped : readyBitOn ((listen io)^[k + n] x).1.kbsr = true) :
    ∃ m n' c', iterate (Computer.round io (Computer.afterTick io)) n' c = some c' ∧
      GotChar io c₀ registers x m c' := by
  induction n using Nat.strongRecOn generalizing k c with
  | ind n ih =>
    obtain ⟨c₁, c₂, hround₁, hround₂, -, h₂, hpc₂⟩ := h.poll io hready hpc
    rw [← Function.iterate_succ_apply' (listen io), ← Function.iterate_succ_apply' (listen io)]
      at h₂
    cases hnow : readyBitOn ((listen io)^[k] x).1.kbsr with
    | true =>
      rw [hnow, if_pos rfl] at hpc₂
      obtain ⟨c₃, c₄, hround₃, hround₄, h₄, hpc₄, hr0, hcodes⟩ := h₂.take io hready hpc₂
      have hiterate : iterate (Computer.round io (Computer.afterTick io)) 4 c = some c₄ := by
        simp [iterate, hround₁, hround₂, hround₃, hround₄]
      have hready₂ : readyBitOn ((listen io)^[k + 1 + 1] x).1.kbsr = true := by
        rw [Function.iterate_succ_apply', Function.iterate_succ_apply']
        exact readyBitOn_listen (readyBitOn_listen hnow)
      exact ⟨k + 1 + 1, 4, c₄, hiterate, hready₂, hr0, hcodes, hpc₄, h₄⟩
    | false =>
      rw [hnow, if_neg Bool.false_ne_true] at hpc₂
      cases n with
      | zero => exact absurd (hnow.symm.trans htyped) Bool.false_ne_true
      | succ n =>
        have htyped₂ : readyBitOn ((listen io)^[k + 1 + 1 + n] x).1.kbsr = true := by
          rw [show k + 1 + 1 + n = k + (n + 1) + 1 by omega, Function.iterate_succ_apply']
          exact readyBitOn_listen htyped
        obtain ⟨m, n', c', hiterate, hgot⟩ := ih n (Nat.lt_succ_self n) h₂ hpc₂ htyped₂
        refine ⟨m, n' + 2, c', ?_, hgot⟩
        rw [iterate, hround₁, Option.bind_some, iterate, hround₂, Option.bind_some, hiterate]

/-- **GETC waits** as long as nothing is typed. -/
theorem getc_waits {k : ℕ} (h : Listening c₀ registers ((listen io)^[k] x) c)
    (hready : GetcReady c₀) (hpc : c.cpu.registers .pc = getcRoutine)
    (hnothing : ∀ j, readyBitOn ((listen io)^[j] x).1.kbsr = false) (n : ℕ) :
    ∃ c', iterate (Computer.round io (Computer.afterTick io)) n c = some c' ∧
      Listening c₀ registers ((listen io)^[k + n] x) c' := by
  induction n using Nat.strongRecOn generalizing k c with
  | ind n ih =>
    obtain ⟨c₁, c₂, hround₁, hround₂, h₁, h₂, hpc₂⟩ := h.poll io hready hpc
    rw [hnothing, if_neg Bool.false_ne_true] at hpc₂
    rw [← Function.iterate_succ_apply' (listen io)] at h₁
    rw [← Function.iterate_succ_apply' (listen io), ← Function.iterate_succ_apply' (listen io)]
      at h₂
    rcases n with - | - | n
    · exact ⟨c, rfl, h⟩
    · exact ⟨c₁, by rw [iterate, hround₁]; rfl, h₁⟩
    · obtain ⟨c', hiterate, h'⟩ := ih n (by omega) h₂ hpc₂
      refine ⟨c', ?_, by rw [show k + (n + 2) = k + 1 + 1 + n by omega]; exact h'⟩
      rw [iterate, hround₁, Option.bind_some, iterate, hround₂, Option.bind_some, hiterate]

/-! ### The call -/

/-- The registers after a call of GETC. -/
def callGetc (registers : Registers) : Registers := jumpAndLink (fetched registers) getcRoutine

variable (io) in
/-- The TRAP instruction. -/
theorem getc_call (hready : GetcReady c) (hlines : c.cpu.LinesLow) (hsilenced : Silenced c.console)
    (hpc : Ordinary (c.cpu.registers .pc))
    (hword : c.console.memory (c.cpu.registers .pc) = 0xF020) :
    ∃ c', c.round io (Computer.afterTick io) = some c' ∧
      c'.cpu.registers .pc = getcRoutine ∧
      Listening c (callGetc c.cpu.registers)
        (listen io (c.console.keyboard, c.console.terminal)) c' := by
  have hbase : Listening c c.cpu.registers (c.console.keyboard, c.console.terminal) c :=
    ⟨fun _ _ => rfl, rfl, hlines, rfl, rfl, rfl, hsilenced⟩
  have hprogram : instruction (c.console.memory (c.cpu.registers .pc)) =
      some fun regs => (ControlInstr.trap 0x20).execute regs := by
    rw [hword]
    rfl
  have hvector : c.console.read 0x20#16 = (getcRoutine, c.console) := by
    rw [Console.read_ordinary (by decide)]
    exact congrArg (·, c.console) hready.os.getc
  have heval : ((ControlInstr.trap 0x20).execute (fetched c.cpu.registers)).eval
      (consoleResponder io) c.console =
        (callGetc c.cpu.registers, { c.console with keyboard := c.console.keyboard }) := by
    simp [ControlInstr.execute, busAccessRead, Prog.send, consoleResponder, hvector, callGetc]
  obtain ⟨c', hround, hregisters, hlisten⟩ :=
    hbase.round io hready hpc hprogram heval (fun _ _ => rfl) rfl hsilenced.2
  exact ⟨c', hround, by rw [hregisters]; rfl, hlisten⟩

variable (io) in
/-- **A call of GETC** on the simulator, in a run. If a character is ready, or is typed some time,
the call returns, and the program goes on with the last character typed before it was read, and with
everything else as it was. If not, the call never returns, and everything stays as it was. -/
theorem getc_reads (libc : SortSearch BusAttachment) {sim : Simulator PluginData ι}
    (hshows : Shows sim c) (hready : GetcReady c) (hlines : c.cpu.LinesLow)
    (hsilenced : Silenced c.console) (hpc : Ordinary (c.cpu.registers .pc))
    (hword : c.console.memory (c.cpu.registers .pc) = 0xF020) :
    ((∃ k, readyBitOn ((listen io)^[k] (c.console.keyboard, c.console.terminal)).1.kbsr = true) →
      ∃ n m sim' c', runLoop (pluginEnv libc io) n sim = some (true, sim') ∧ Shows sim' c' ∧
        GotChar io c (callGetc c.cpu.registers) (c.console.keyboard, c.console.terminal) m c') ∧
    ((∀ k, readyBitOn ((listen io)^[k] (c.console.keyboard, c.console.terminal)).1.kbsr = false) →
      ∀ n, ∃ sim' c', runLoop (pluginEnv libc io) (n + 1) sim = some (true, sim') ∧
        Shows sim' c' ∧ Listening c (callGetc c.cpu.registers)
          ((listen io)^[n + 1] (c.console.keyboard, c.console.terminal)) c') := by
  obtain ⟨x, hx⟩ : ∃ x, x = (c.console.keyboard, c.console.terminal) := ⟨_, rfl⟩
  obtain ⟨c₁, hround, hpc₁, h₁⟩ := getc_call io hready hlines hsilenced hpc hword
  rw [← hx] at h₁ ⊢
  have h₁' : Listening c (callGetc c.cpu.registers) ((listen io)^[1] x) c₁ := h₁
  -- what the computer does in its rounds, the simulator does
  have hrounds : ∀ {n c'}, iterate (Computer.round io (Computer.afterTick io)) n c₁ = some c' →
      ∃ sim', runLoop (pluginEnv libc io) (n + 1) sim = some (true, sim') ∧ Shows sim' c' := by
    intro n c' hiterate
    refine runLoop_of_rounds libc hshows ?_
    rw [iterate, hround]
    exact hiterate
  constructor
  · rintro ⟨k, hk⟩
    have htyped : readyBitOn ((listen io)^[1 + k] x).1.kbsr = true := by
      rw [Nat.add_comm, Function.iterate_succ_apply']
      exact readyBitOn_listen hk
    obtain ⟨m, n, c', hiterate, hgot⟩ := getc_returns h₁' hready hpc₁ htyped
    obtain ⟨sim', hloop, hshows'⟩ := hrounds hiterate
    exact ⟨n + 1, m, sim', c', hloop, hshows', hgot⟩
  · intro hnothing n
    obtain ⟨c', hiterate, h'⟩ := getc_waits h₁' hready hpc₁ hnothing n
    obtain ⟨sim', hloop, hshows'⟩ := hrounds hiterate
    exact ⟨sim', c', hloop, hshows', by rw [Nat.add_comm]; exact h'⟩

end Getc

/-- A terminal where some characters were typed. -/
def typingIo : DeviceIo (List Byte) where
  getChar
    | [] => (0, 0, [])
    | character :: rest => (1, character, rest)
  writeChar _ s := s
  ioStart s := (0, s)
  ioEnd s := (0, s)

theorem getc_reads_typing : ∃ (sim : Simulator PluginData (List Byte)) (c : Computer (List Byte))
    (n m : ℕ) (sim' : Simulator PluginData (List Byte)) (c' : Computer (List Byte)),
    runLoop (pluginEnv (SortSearch.bisecting _) typingIo) n sim = some (true, sim') ∧
      Shows sim' c' ∧
      GotChar typingIo c (callGetc c.cpu.registers) (c.console.keyboard, c.console.terminal) m
        c' := by
  obtain ⟨sim₀, sim, -, -, hshows⟩ :=
    boot_shows (SortSearch.bisecting _) typingIo [0x41] 0x3000 [0xF020] (Or.inl rfl)
  have huser : InUserSpace 0x3000 [0xF020] := ⟨by decide, by decide⟩
  have hready : (bootedTask typingIo [0x41] 0x3000 [0xF020] []).Ready := booted_ready huser []
  have htyped : readyBitOn ((listen typingIo)^[1]
      ((booted typingIo [0x41] 0x3000 [0xF020]).console.keyboard,
        (booted typingIo [0x41] 0x3000 [0xF020]).console.terminal)).1.kbsr = true := by
    rw [booted_console huser]
    decide
  have hword : (booted typingIo [0x41] 0x3000 [0xF020]).console.memory
      (0x3000 + BitVec.ofNat 16 0) = 0xF020 := booted_word huser rfl
  have hreads := getc_reads typingIo (SortSearch.bisecting _) hshows ⟨hready.clock, hready.os⟩
    booted_lines (booted_silenced huser) (by rw [booted_pc]; decide)
    (by rw [booted_pc]; exact hword)
  obtain ⟨n, m, sim', c', hloop, hshows', hgot⟩ := hreads.1 ⟨1, htyped⟩
  exact ⟨sim, _, n, m, sim', c', hloop, hshows', hgot⟩

end Lc3Simulator
