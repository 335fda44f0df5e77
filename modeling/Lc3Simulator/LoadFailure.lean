import Lc3Simulator.ProgramLoad

/-!
# What a failed load leaves behind

A load stores each word as it comes, and sets the PC after the last result of the callback, whether
that result is the end or an error. So an error after the origin finds the words before it in
memory, and leaves a simulator that is about to run them. A failed load changes nothing exactly
when it had nothing to change: the error came before the origin, or everything that came before it
was there already.

## Main definitions

* `LoadUndone` — PC, memory and devices are what they were
* `NothingNew` — the words that are delivered are there already

## Main results

* `loadFailure_undone_iff` — the two are the same, for every load that fails
* `loadFailure_moves_pc` — a load that fails right after the origin moves the PC
-/

namespace Lc3Simulator

variable {ω ι : Type} {env : Env ω ι} {sim sim' : Simulator ω ι}

/-- The PC, every word of memory and every device are as before. -/
structure LoadUndone (before after : Simulator ω ι) : Prop where
  pc : after.cpu.registers .pc = before.cpu.registers .pc
  memory : ∀ a, after.machine.bus.memory a = before.machine.bus.memory a
  devices : after.machine.devices = before.machine.devices

/-- No word is delivered at all, or everything is there already: the origin in the PC, in each
address of ordinary memory the last word for it, and in the devices what the words for their
registers do to them. -/
def NothingNew (env : Env ω ι) (sim : Simulator ω ι) : List Word → Prop
  | [] => True
  | origin :: rest =>
    sim.cpu.registers .pc = origin ∧
      (∀ a value, (sim.machine.bus.memory a).attachmentFlag = false →
        lastWord a origin rest = some value → (sim.machine.bus.memory a).value = value) ∧
      ∀ m, writeRegisters env sim.machine origin rest = some m →
        m.devices = sim.machine.devices

/-- A cell keeps its contents if and only if it is no ordinary one or has the last word already. -/
theorem storeWords_eq_self_iff {memory : Word → Mem} {origin : Word} {words : List Word}
    {a : Word} :
    storeWords memory origin words a = memory a ↔
      ∀ value, (memory a).attachmentFlag = false → lastWord a origin words = some value →
        (memory a).value = value := by
  rw [storeWords]
  cases hflag : (memory a).attachmentFlag with
  | true => simp
  | false =>
    simp only [Bool.false_eq_true, if_false]
    cases hlast : lastWord a origin words with
    | none => simp
    | some word =>
      constructor
      · intro heq value _ hvalue
        obtain rfl := Option.some.inj hvalue
        exact (congrArg Mem.value heq).symm
      · intro hthere
        have hword : (memory a).value = word := hthere word trivial rfl
        rw [Option.getD_some, ← hword]

/-- **A failed load leaves everything as it was if and only if it brought nothing new.** -/
theorem loadFailure_undone_iff {words : List Word} {last status : ℤ} (hlast : last < 0)
    (hload : simulatorLoadProgram env sim words last = some (status, sim')) :
    status < 0 ∧ (LoadUndone sim sim' ↔ NothingNew env sim words) := by
  cases words with
  | nil =>
    obtain ⟨rfl, rfl⟩ := Prod.mk.inj (Option.some.inj hload)
    exact ⟨hlast, iff_of_true ⟨rfl, fun _ => rfl, rfl⟩ trivial⟩
  | cons origin rest =>
    obtain ⟨machine, hwords, hload⟩ := Option.bind_eq_some_iff.mp hload
    obtain ⟨rfl, rfl⟩ := Prod.mk.inj (Option.some.inj hload)
    rw [loadWords_eq] at hwords
    obtain ⟨m, hregisters, rfl⟩ := Option.map_eq_some_iff.mp hwords
    refine ⟨hlast, ?_⟩
    constructor
    · rintro ⟨hpc, hmemory, hdevices⟩
      refine ⟨hpc.symm, fun a value hflag hvalue => ?_, fun m₁ hm₁ => ?_⟩
      · exact storeWords_eq_self_iff.mp (hmemory a) value hflag hvalue
      · obtain rfl := Option.some.inj (hregisters.symm.trans hm₁)
        exact hdevices
    · rintro ⟨hpc, hmemory, hdevices⟩
      refine ⟨hpc.symm, fun a => ?_, hdevices m hregisters⟩
      exact storeWords_eq_self_iff.mpr fun value => hmemory a value

/-- A program of two words is in memory, and about to run. -/
def loadedSim : Simulator Unit Unit :=
  { blankSim with
    cpu := ⟨⟨false, 0⟩, ⟨false, 1⟩, fun r => if r = .pc then 0x3000 else 0⟩
    machine := bareMachine fun a =>
      if a = 0x3000 then 0x1234 else if a = 0x3001 then 0x5678 else 0 }

/-- An error after words that were there already. -/
theorem loadFailure_undone_loaded :
    ∃ sim', simulatorLoadProgram bareEnv loadedSim [0x3000, 0x1234, 0x5678] (-1) =
        some (-1, sim') ∧
      LoadUndone loadedSim sim' := by
  have hload : simulatorLoadProgram bareEnv loadedSim [0x3000, 0x1234, 0x5678] (-1) =
    some (-1, _) := rfl
  refine ⟨_, hload, (loadFailure_undone_iff (by decide) hload).2.mpr ⟨rfl, ?_, ?_⟩⟩
  · intro a value _ hvalue
    by_cases hsecond : (0x3000 : Word) + 1 = a
    · subst hsecond
      exact Option.some.inj hvalue
    · have hfirst : (none : Option Word).or (if 0x3000 = a then some 0x1234 else none) =
          some value := by
        rwa [lastWord, lastWord, lastWord, if_neg hsecond] at hvalue
      rw [Option.none_or] at hfirst
      split at hfirst
      · next heq =>
        subst heq
        exact Option.some.inj hfirst
      · cases hfirst
  · intro m hm
    obtain rfl := Option.some.inj hm
    rfl

/-- **A load that fails moves the PC** to the origin and keeps the words it stored. -/
theorem loadFailure_moves_pc :
    ∃ sim', simulatorLoadProgram bareEnv blankSim [0x3000, 0x1234] (-1) = some (-1, sim') ∧
      sim'.cpu.registers .pc = 0x3000 ∧ (sim'.machine.bus.memory 0x3000).value = 0x1234 ∧
      ¬ LoadUndone blankSim sim' := by
  refine ⟨_, rfl, rfl, rfl, fun h => ?_⟩
  exact absurd h.pc (by decide)

end Lc3Simulator
