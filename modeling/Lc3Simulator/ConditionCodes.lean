import Lc3Simulator.Events

/-!
# The condition codes

Every instruction that writes a result sets exactly one condition code, and so does every delivery.
A new CPU has none: `new_Cpu` clears the status word, where the deliveries start from the word with
condition code Z. Until the first result or delivery no branch is taken, not even one that names all
three conditions.

To say what the condition codes reflect, a run records the value last written since the last
delivery, and whether there was a result or a delivery at all.

## Main definitions

* `ConditionHistory`, `recordedEvent` — the record, and events that keep it
* `ReflectsResult` — exactly one condition code, and the right one

## Main results

* `reflectsResult_iff` — from the first result or delivery on, and not before
* `br_not_taken` — a branch on all three conditions that falls through
-/

namespace Lc3Simulator

open Isa Transition

/-- What a run says about the condition codes: whether an instruction wrote a result or a handler
was entered, and the result last written since a handler was last entered. -/
structure ConditionHistory where
  started : Bool
  result : Option Word

/-- The condition codes are what the last result says, or Z. Exactly one is set, so that a branch
that names all three is taken. -/
structure ReflectsResult (psr : Word) (result : Option Word) : Prop where
  one : psr.extractLsb' 0 3 = 0b100 ∨ psr.extractLsb' 0 3 = 0b010 ∨ psr.extractLsb' 0 3 = 0b001
  branch : ∀ w : Word, w.extractLsb' 9 3 = 0b111 → nzpInstru w &&& nzpPsr psr ≠ 0
  sign : psr.extractLsb' 0 3 = (result.map condition).getD 0b010

/-- Condition codes that are what the last result says are well formed. -/
theorem reflectsResult_of_sign {psr : Word} {result : Option Word}
    (h : psr.extractLsb' 0 3 = (result.map condition).getD 0b010) : ReflectsResult psr result := by
  have hone : ∀ nzp : BitVec 3, nzp = 0b100 ∨ nzp = 0b010 ∨ nzp = 0b001 →
      (0b111 &&& nzp).setWidth 16 ≠ (0 : Word) := by decide
  have hcases : psr.extractLsb' 0 3 = 0b100 ∨ psr.extractLsb' 0 3 = 0b010 ∨
      psr.extractLsb' 0 3 = 0b001 := by
    rw [h]
    cases result with
    | none => exact Or.inr (Or.inl rfl)
    | some value =>
      simp only [Option.map_some, Option.getD_some, condition]
      split_ifs <;> simp
  refine ⟨hcases, fun w hw => ?_, h⟩
  rw [nzpInstru_and_nzpPsr, hw]
  exact hone _ hcases

section Recorded

variable {ω ι : Type}

/-- The register that an event writes the result of an instruction to. -/
def resultRegister (env : Env ω ι) (sim : Simulator ω ι) : SimEvent → Option (BitVec 3)
  | .execute => (fetchedWord env sim.cpu sim.machine).bind destination
  | _ => none

/-- The record after an event. -/
def ConditionHistory.record (env : Env ω ι) (e : SimEvent) (sim sim' : Simulator ω ι)
    (history : ConditionHistory) : ConditionHistory :=
  match delivery sim e, resultRegister env sim e with
  | some _, _ => ⟨true, none⟩
  | none, some dr => ⟨true, some (sim'.cpu.registers (reg dr))⟩
  | none, none => history

/-- An event, and what it adds to the record. -/
def recordedEvent (env : Env ω ι) (e : SimEvent) (s : Simulator ω ι × ConditionHistory) :
    Option (Unit × (Simulator ω ι × ConditionHistory)) :=
  (simEvent env e s.1).map fun x => ((), x.2, s.2.record env e s.1 x.2)

variable {env : Env ω ι} {sim sim' sim₀ : Simulator ω ι} {history : ConditionHistory}

/-- Every run can be recorded. -/
theorem run_recorded {events : List SimEvent} {outs : List Unit}
    (h : run (simEvent env) events sim = some (outs, sim')) (history : ConditionHistory) :
    ∃ history', run (recordedEvent env) events (sim, history) = some (outs, sim', history') := by
  induction events generalizing sim outs history with
  | nil =>
    obtain ⟨rfl, rfl⟩ := Prod.mk.inj (Option.some.inj h)
    exact ⟨history, rfl⟩
  | cons e events ih =>
    obtain ⟨out, sim₁, rest, hstep, hrest, rfl⟩ := run_cons_eq_some h
    obtain ⟨history', hrun⟩ := ih hrest (history.record env e sim sim₁)
    exact ⟨history', by simp [run_cons, recordedEvent, hstep, hrun]⟩

/-- Before the first result or delivery no condition code is set, and from then on it is the right
one. -/
def ConditionInvariant (s : Simulator ω ι × ConditionHistory) : Prop :=
  (s.1.cpu.registers .psr).extractLsb' 0 3 =
    if s.2.started then (s.2.result.map condition).getD 0b010 else 0

theorem extractLsb'_handlerPsr (priority : Word) :
    (handlerPsr priority).extractLsb' 0 3 = 0b010 := by
  rw [handlerPsr, initPsrMaskSupervisor]
  ext i hi
  interval_cases i <;> simp

theorem extractLsb'_withCondition (psr : Word) (nzp : BitVec 3) :
    (withCondition psr nzp).extractLsb' 0 3 = nzp := by
  ext i hi
  rw [BitVec.getElem_extractLsb', getLsbD_withCondition]
  simp [hi]

/-- A result is recorded with its condition codes. -/
theorem writeResult_recorded (regs : Registers) (dr : BitVec 3) (value : Word) :
    writeResult regs dr value (reg dr) = value ∧
      (writeResult regs dr value .psr).extractLsb' 0 3 = condition value := by
  constructor
  · rw [writeResult, Function.update_of_ne (reg_ne_psr dr), Function.update_self]
  · rw [writeResult, Function.update_self, extractLsb'_withCondition]

theorem resultRegister_execute {w : Word} (hfetch : fetchedWord env sim.cpu sim.machine = some w) :
    resultRegister env sim .execute = destination w := by
  rw [resultRegister, hfetch]
  rfl

theorem record_of_delivered {e : SimEvent} {entry : Byte × Word}
    (hdelivery : delivery sim e = some entry) :
    history.record env e sim sim' = ⟨true, none⟩ := by
  simp [ConditionHistory.record, hdelivery]

theorem record_of_quiet {e : SimEvent} (hdelivery : delivery sim e = none)
    (hregister : resultRegister env sim e = none) : history.record env e sim sim' = history := by
  simp [ConditionHistory.record, hdelivery, hregister]

/-- An event that leaves the record and the PSR alone. -/
theorem ConditionInvariant.of_quiet {e : SimEvent} {s : Simulator ω ι × ConditionHistory}
    (hs : ConditionInvariant s) (hdelivery : delivery s.1 e = none)
    (hregister : resultRegister env s.1 e = none)
    (hpsr : sim'.cpu.registers .psr = s.1.cpu.registers .psr) :
    ConditionInvariant (sim', s.2.record env e s.1 sim') := by
  rw [ConditionInvariant, record_of_quiet hdelivery hregister, hpsr]
  exact hs

/-- One event keeps the condition codes and the record in step. -/
theorem recordedEvent_invariant {e : SimEvent} {out : Unit}
    {s s' : Simulator ω ι × ConditionHistory} (hwrites : ¬ e.WritesRegister)
    (hrti : ¬ ExecutesRti env e s.1) (hs : ConditionInvariant s)
    (h : recordedEvent env e s = some (out, s')) : ConditionInvariant s' := by
  obtain ⟨⟨u, sim'⟩, hstep, h⟩ := Option.map_eq_some_iff.mp h
  obtain ⟨-, rfl⟩ := Prod.mk.inj h
  cases simEvent_cpuChange hstep with
  | delivered vec priority m hdelivery hentry =>
    rw [ConditionInvariant, record_of_delivered hdelivery, hentry.psr]
    exact extractLsb'_handlerPsr priority
  | executed w he hfetch hexec =>
    subst he
    cases hexec with
    | result dr value hdest hregs =>
      have hrecord : s.2.record env .execute s.1 sim' = ⟨true, some value⟩ := by
        simp [ConditionHistory.record, delivery, resultRegister_execute hfetch, hdest, hregs,
          (writeResult_recorded (fetched s.1.cpu.registers) dr value).1]
      rw [ConditionInvariant, hrecord, hregs]
      exact (writeResult_recorded _ dr value).2
    | kept hdest hregs =>
      have hpsr : sim'.cpu.registers .psr = s.1.cpu.registers .psr :=
        (hregs .psr (by decide) (by decide)).trans (Function.update_of_ne (by decide) _ _)
      exact hs.of_quiet rfl ((resultRegister_execute hfetch).trans hdest) hpsr
    | returned pc psr hop hmode => exact absurd ⟨rfl, hmode, w, hfetch, hop⟩ hrti
  | written r value he hregs =>
    rcases he with rfl | ⟨rfl, rfl⟩
    · exact absurd trivial hwrites
    · refine hs.of_quiet rfl rfl ?_
      rw [hregs]
      exact Function.update_of_ne (by decide) _ _
  | same hdelivery hfetch hcpu =>
    have hregister : resultRegister env s.1 e = none := by
      cases e with
      | execute =>
        rw [resultRegister, hfetch rfl]
        rfl
      | checkExceptions => rfl
      | between b => rfl
    exact hs.of_quiet hdelivery hregister (by rw [hcpu])

/-- **The condition codes reflect the last result from the first result or delivery on.** In every
run of a new simulator in which no RTI returns from a handler and the user interface writes no
register, exactly one condition code is set, and it is the sign of the value last written since the
last delivery, or Z, exactly when an instruction has written a result or a handler was entered. -/
theorem reflectsResult_iff {devices : ω} {deviceIo : ι} {events : List SimEvent} {outs : List Unit}
    (hnew : simulatorNew env devices deviceIo = some sim₀)
    (hevents : Along (recordedEvent env) (fun e s => ¬ e.WritesRegister ∧ ¬ ExecutesRti env e s.1)
      events (sim₀, ⟨false, none⟩))
    (hrun : run (recordedEvent env) events (sim₀, ⟨false, none⟩) = some (outs, sim, history)) :
    ReflectsResult (sim.cpu.registers .psr) history.result ↔ history.started = true := by
  have hinit : ConditionInvariant (sim₀, ⟨false, none⟩) := by
    rw [ConditionInvariant, (simulatorNew_eq_some hnew).1]
    rfl
  have hinv : ConditionInvariant (sim, history) := run_invariant_of_along
    (fun e s _ _ hC hI h => recordedEvent_invariant hC.1 hC.2 hI h) hevents hinit hrun
  rw [ConditionInvariant] at hinv
  cases hstarted : history.started with
  | true =>
    rw [hstarted, if_pos rfl] at hinv
    exact iff_of_true (reflectsResult_of_sign hinv) rfl
  | false =>
    rw [hstarted, if_neg Bool.false_ne_true] at hinv
    refine iff_of_false (fun h => ?_) Bool.false_ne_true
    rcases h.one with hone | hone | hone <;> rw [hinv] at hone <;> exact absurd hone (by decide)

end Recorded

/-! ### Before the first result -/

/-- `ADD R0, R0, #0` at address 0. -/
def addEvents : List SimEvent := [.between (.writeAddress 0 0x1020), .execute]

theorem addEvents_along {sim : Simulator Unit Unit}
    (hnew : simulatorNew bareEnv () () = some sim) :
    Along (recordedEvent bareEnv) (fun e s => ¬ e.WritesRegister ∧ ¬ ExecutesRti bareEnv e s.1)
      addEvents (sim, ⟨false, none⟩) := by
  obtain rfl := Option.some.inj hnew
  refine ⟨⟨fun h => h, fun h => (by cases h.1)⟩, fun out s hstep => ⟨⟨fun h => h, ?_⟩,
    fun _ _ _ => trivial⟩⟩
  obtain ⟨-, rfl⟩ := Prod.mk.inj (Option.some.inj hstep)
  rintro ⟨-, -, w, hfetch, hop⟩
  obtain rfl : 0x1020 = w := Option.some.inj hfetch
  exact absurd hop (by decide)

theorem reflectsResult_iff_add : ∃ sim₀ outs sim history,
    run (recordedEvent bareEnv) addEvents (sim₀, ⟨false, none⟩) = some (outs, sim, history) ∧
    history.result = some 0 ∧
    (ReflectsResult (sim.cpu.registers .psr) history.result ↔ history.started = true) := by
  obtain ⟨sim₀, hnew⟩ : ∃ sim₀, simulatorNew bareEnv () () = some sim₀ := ⟨_, rfl⟩
  have halong := addEvents_along hnew
  obtain ⟨outs, sim, history, hrun, hresult⟩ : ∃ outs sim history,
      run (recordedEvent bareEnv) addEvents (sim₀, ⟨false, none⟩) = some (outs, sim, history) ∧
        history.result = some 0 := by
    obtain rfl := Option.some.inj hnew
    exact ⟨_, _, _, rfl, rfl⟩
  exact ⟨sim₀, outs, sim, history, hrun, hresult, reflectsResult_iff hnew halong hrun⟩

/-- In a new simulator no condition code is set, and `BRnzp #1` at `0x3000` goes on to `0x3001`. -/
theorem br_not_taken : ∃ sim, simulatorNew bareEnv () () = some sim ∧
    ¬ ReflectsResult (sim.cpu.registers .psr) none ∧
    (run (runCommand bareEnv) [.loadProgram [0x3000, 0x0E01] 0, .step 1] sim).map
      (fun x => x.2.cpu.registers .pc) = some 0x3001 := by
  refine ⟨_, rfl, fun h => ?_, by decide +kernel⟩
  rcases h.one with hone | hone | hone <;> exact absurd hone (by decide)

end Lc3Simulator
