import Lc3Simulator.Arbitration
import Lc3Simulator.Plugins.Keyboard
import Lc3Simulator.Stepping

/-!
# Is a key ever lost?

The keyboard raises an interrupt when a character arrives while interrupts are enabled. A program
may also enable them later, with the character still unread; then the status register says that an
interrupt is due, and none was raised. Otherwise no key is lost, in whatever order characters,
register accesses and deliveries come: the controller drops an alert only if one for the same vector
is pending already.

`KeyboardSystem` is the keyboard and the interrupt controller, with the events that change one of
them. What a simulator with keyboards only does to them is always a run of these events, in which
the same requests are raised and the same vectors delivered.

A run records whether there is an unread character, whether the last one arrived unannounced, and
whether the vector of the keyboard was delivered since.

## Main definitions

* `KeyboardEvent`, `keyboardEvent` — what happens to a keyboard and the controller
* `CharacterHistory`, `recordedKeyboardEvent` — the record, and events that keep it
* `NotLost` — the interrupt of an unread character is pending or was delivered
* `LeavesMissedOff` — interrupts are not switched on over a character that arrived unannounced
* `keyboardEffects`, `simEffects` — events with the alerts and deliveries that are seen of them

## Main results

* `keyboard_notLost_iff` — the two are the same, in every run
* `simEvent_keyboard`, `reachable_keyboard` — simulators with keyboards
-/

namespace Lc3Simulator

open Interaction Transition

/-! ### The keyboard and the controller -/

/-- The registers of a keyboard, and the controller in which it raises interrupts. -/
structure KeyboardSystem where
  data : KeyboardData
  interCont : InterruptController

/-- A host call of the keyboard, as far as the controller goes. -/
def controllerCall (interCont : InterruptController) : HostCall → Option InterruptController
  | .writeOutput _ => some interCont
  | .alertInterrupt vec priority => interruptControllerAlert interCont vec priority

/-- Run a callback of the keyboard, with the host calls it makes. -/
def KeyboardSystem.call {α : Type} (callback : Callback KeyboardData α) (s : KeyboardSystem) :
    Option (α × KeyboardSystem) := do
  let (value, data, calls) ← callback s.data
  let interCont ← calls.foldlM controllerCall s.interCont
  return (value, { data, interCont })

/-- A request of another device: not for the vector of the keyboard, and in range. -/
structure OtherRequest where
  vec : Byte
  priority : Byte
  vec_ne : vec ≠ keyboardInterruptVector
  vec_lt : vec.toNat < 255
  priority_lt : priority.toNat < 255

/-- What happens to a keyboard and the controller. `checkInterrupts` comes with the priority of the
CPU at that time. -/
inductive KeyboardEvent
  | input (character : Word)
  | readStatus
  | readData
  | writeStatus (value : Word)
  | writeData (value : Word)
  | checkInterrupts (cpuPriority : Word)
  | alert (request : OtherRequest)

/-- One event. The output is the vector that is delivered, if one is. -/
def keyboardEvent : KeyboardEvent → KeyboardSystem → Option (Option Byte × KeyboardSystem)
  | .input character, s => (s.call (keyboardOnInput character)).map fun x => (none, x.2)
  | .readStatus, s => (s.call (keyboardReadRegister kbsrAddress)).map fun x => (none, x.2)
  | .readData, s => (s.call (keyboardReadRegister kbdrAddress)).map fun x => (none, x.2)
  | .writeStatus value, s =>
    (s.call (keyboardWriteRegister kbsrAddress value)).map fun x => (none, x.2)
  | .writeData value, s =>
    (s.call (keyboardWriteRegister kbdrAddress value)).map fun x => (none, x.2)
  | .checkInterrupts cpuPriority, s => do
    match ← interruptControllerPeek s.interCont with
    | none => return (none, s)
    | some (vec, priority) =>
      if priority.setWidth 16 ≤ cpuPriority then
        return (none, s)
      else do
        let interCont ← interruptControllerTake s.interCont
        return (some vec, { s with interCont })
  | .alert request, s =>
    (interruptControllerAlert s.interCont request.vec request.priority).map fun interCont =>
      (none, { s with interCont })

/-! ### The record -/

/-- What a run says about the last character: whether it is unread, whether it arrived unannounced,
and whether the vector of the keyboard was delivered since. -/
structure CharacterHistory where
  unread : Bool
  missed : Bool
  delivered : Bool

/-- The keyboard has an interrupt pending. -/
def KeyboardPending (interCont : InterruptController) : Prop :=
  (pending interCont).Has keyboardInterruptVector.toNat

instance (interCont : InterruptController) : Decidable (KeyboardPending interCont) :=
  inferInstanceAs (Decidable ((pending interCont).Has keyboardInterruptVector.toNat))

/-- The record after an event. A character is unannounced if it arrives with interrupts disabled
and none pending. -/
def CharacterHistory.record (e : KeyboardEvent) (out : Option Byte) (s : KeyboardSystem)
    (history : CharacterHistory) : CharacterHistory :=
  match e with
  | .input _ => ⟨true, !interruptEnableBitOn s.data.kbsr && !decide (KeyboardPending s.interCont),
      false⟩
  | .readData => { history with unread := false }
  | .checkInterrupts _ =>
    if out = some keyboardInterruptVector then { history with delivered := true } else history
  | _ => history

/-- An event, and what it adds to the record. -/
def recordedKeyboardEvent (e : KeyboardEvent) (s : KeyboardSystem × CharacterHistory) :
    Option (Option Byte × (KeyboardSystem × CharacterHistory)) :=
  (keyboardEvent e s.1).map fun x => (x.1, x.2, s.2.record e x.1 s.1)

/-- The ready bit of the status register. -/
def readyBitOn (kbsr : Word) : Bool := kbsr &&& readyBitSetOn ≠ 0

/-- If the status register says that an unread character is to raise an interrupt, then the
interrupt is pending, or it was delivered since the character arrived. -/
def NotLost (s : KeyboardSystem × CharacterHistory) : Prop :=
  s.2.unread = true → readyBitOn s.1.data.kbsr = true →
    interruptEnableBitOn s.1.data.kbsr = true →
    KeyboardPending s.1.interCont ∨ s.2.delivered = true

/-- The event does not switch interrupts on while a character is unread that arrived unannounced. -/
def LeavesMissedOff (e : KeyboardEvent) (s : KeyboardSystem × CharacterHistory) : Prop :=
  ∀ value, e = .writeStatus value → interruptEnableBitOn value = true →
    ¬ (s.2.unread = true ∧ s.2.missed = true)

/-! ### The invariant -/

/-- What holds as long as no character is lost. -/
structure KeyboardInvariant (s : KeyboardSystem × CharacterHistory) : Prop where
  queue : QueueInvariant s.1.interCont
  ready : s.2.unread = true → readyBitOn s.1.data.kbsr = true
  missed_iff : s.2.unread = true →
    (s.2.missed = true ↔ ¬ KeyboardPending s.1.interCont ∧ s.2.delivered = false)
  enabled : s.2.unread = true → s.2.missed = true → interruptEnableBitOn s.1.data.kbsr = false

theorem KeyboardInvariant.notLost {s : KeyboardSystem × CharacterHistory}
    (h : KeyboardInvariant s) : NotLost s := by
  intro hunread _ henabled
  by_contra hnot
  obtain ⟨hpending, hdelivered⟩ := not_or.mp hnot
  have hmissed := (h.missed_iff hunread).mpr ⟨hpending, Bool.eq_false_iff.mpr hdelivered⟩
  exact absurd (henabled.symm.trans (h.enabled hunread hmissed)) (by decide)

theorem readyBitOn_eq (kbsr : Word) : readyBitOn kbsr = kbsr.getLsbD 15 := by
  have h : kbsr &&& readyBitSetOn = (BitVec.ofBool (kbsr.getLsbD 15)).setWidth 16 <<< 15 := by
    rw [readyBitSetOn]
    ext i hi
    interval_cases i <;> simp
  rw [readyBitOn, h]
  cases kbsr.getLsbD 15 <;> decide

theorem interruptEnableBitOn_eq (kbsr : Word) : interruptEnableBitOn kbsr = kbsr.getLsbD 14 := by
  have h : (0x4000 : Word) &&& kbsr = (BitVec.ofBool (kbsr.getLsbD 14)).setWidth 16 <<< 14 := by
    ext i hi
    interval_cases i <;> simp
  rw [interruptEnableBitOn, h]
  cases kbsr.getLsbD 14 <;> decide

/-- A character sets the ready bit and leaves the enable bit. -/
theorem kbsr_input (kbsr : Word) : readyBitOn (kbsr ||| readyBitSetOn) = true ∧
    interruptEnableBitOn (kbsr ||| readyBitSetOn) = interruptEnableBitOn kbsr := by
  rw [readyBitOn_eq, interruptEnableBitOn_eq, interruptEnableBitOn_eq, readyBitSetOn]
  simp

/-- A write keeps a ready bit that is set, and takes over the enable bit. -/
theorem kbsr_write (kbsr value : Word) :
    (readyBitOn kbsr = true → readyBitOn (value ||| kbsr &&& readyBitSetOn) = true) ∧
    interruptEnableBitOn (value ||| kbsr &&& readyBitSetOn) = interruptEnableBitOn value := by
  rw [readyBitOn_eq, readyBitOn_eq, interruptEnableBitOn_eq, interruptEnableBitOn_eq,
    readyBitSetOn]
  constructor
  · intro h
    simp [h]
  · simp

/-! ### One event -/

/-- The invariant depends on the controller only through its queue and the pending vector. -/
theorem KeyboardInvariant.withController {data : KeyboardData} {c c' : InterruptController}
    {history : CharacterHistory} (h : KeyboardInvariant (⟨data, c⟩, history))
    (hqueue : QueueInvariant c') (hpending : KeyboardPending c' ↔ KeyboardPending c) :
    KeyboardInvariant (⟨data, c'⟩, history) where
  queue := hqueue
  ready := h.ready
  missed_iff hunread := (h.missed_iff hunread).trans (and_congr_left' (not_congr hpending.symm))
  enabled := h.enabled

theorem keyboardInvariant_input (character : Word) {s : KeyboardSystem}
    {history : CharacterHistory} (h : KeyboardInvariant (s, history)) :
    ∃ s', keyboardEvent (.input character) s = some (none, s') ∧
      KeyboardInvariant (s', history.record (.input character) none s) := by
  obtain ⟨data, c⟩ := s
  obtain ⟨hready, henable⟩ := kbsr_input data.kbsr
  cases hon : interruptEnableBitOn data.kbsr with
  | true =>
    have hvec : keyboardInterruptVector.toNat < 255 := by decide
    have hpriority : keyboardInterruptPriority.toNat < 255 := by decide
    obtain ⟨c', halert, hqueue, hpending⟩ :=
      interruptControllerAlert_refines h.queue hvec hpriority
    have hnow : KeyboardPending c' := by
      rw [KeyboardPending, hpending, Requests.has_alert]
      exact Or.inr rfl
    refine ⟨⟨⟨data.kbsr ||| readyBitSetOn, character⟩, c'⟩, ?_, hqueue, fun _ => hready,
      fun _ => ?_, fun _ hmissed => ?_⟩
    · simp [keyboardEvent, KeyboardSystem.call, keyboardOnInput, henable, hon, controllerCall,
        halert]
    · simp [CharacterHistory.record, hon, hnow]
    · simp [CharacterHistory.record, hon] at hmissed
  | false =>
    refine ⟨⟨⟨data.kbsr ||| readyBitSetOn, character⟩, c⟩, ?_, h.queue, fun _ => hready,
      fun _ => ?_, fun _ _ => henable.trans hon⟩
    · simp [keyboardEvent, KeyboardSystem.call, keyboardOnInput, henable, hon]
    · simp [CharacterHistory.record, hon]

theorem keyboardEvent_writeStatus (value : Word) (data : KeyboardData) (c : InterruptController) :
    keyboardEvent (.writeStatus value) ⟨data, c⟩ =
      some (none, ⟨⟨value ||| data.kbsr &&& readyBitSetOn, data.kbdr⟩, c⟩) := by
  simp [keyboardEvent, KeyboardSystem.call, keyboardWriteRegister]

theorem keyboardInvariant_writeStatus {value : Word} {s : KeyboardSystem}
    {history : CharacterHistory} (h : KeyboardInvariant (s, history))
    (hleaves : LeavesMissedOff (.writeStatus value) (s, history)) :
    ∃ s', keyboardEvent (.writeStatus value) s = some (none, s') ∧
      KeyboardInvariant (s', history) := by
  obtain ⟨data, c⟩ := s
  obtain ⟨hready, henable⟩ := kbsr_write data.kbsr value
  refine ⟨_, keyboardEvent_writeStatus value data c, h.queue, fun hunread => ?_, h.missed_iff,
    fun hunread hmissed => ?_⟩
  · exact hready (h.ready hunread)
  · refine henable.trans (Bool.eq_false_iff.mpr fun hon => ?_)
    exact hleaves value rfl hon ⟨hunread, hmissed⟩

theorem keyboardInvariant_checkInterrupts (cpuPriority : Word) {s : KeyboardSystem}
    {history : CharacterHistory} (h : KeyboardInvariant (s, history)) :
    ∃ out s', keyboardEvent (.checkInterrupts cpuPriority) s = some (out, s') ∧
      KeyboardInvariant (s', history.record (.checkInterrupts cpuPriority) out s) := by
  obtain ⟨data, c⟩ := s
  obtain ⟨request, hpeek, -⟩ := interruptControllerPeek_refines h.queue
  match request with
  | none => exact ⟨none, ⟨data, c⟩, by simp [keyboardEvent, hpeek], h⟩
  | some (vec, priority) =>
    by_cases hle : priority.setWidth 16 ≤ cpuPriority
    · exact ⟨none, ⟨data, c⟩, by simp [keyboardEvent, hpeek, hle], h⟩
    · obtain ⟨hgreatest, c', htake, hqueue, -, hhas⟩ :=
        interruptControllerTake_served h.queue hpeek
      refine ⟨some vec, ⟨data, c'⟩, by simp [keyboardEvent, hpeek, hle, htake], ?_⟩
      by_cases hvec : vec = keyboardInterruptVector
      · -- The interrupt was pending, so that the character, if unread, was announced.
        subst hvec
        have hpending : KeyboardPending c := ⟨_, Finset.mem_of_max hgreatest, rfl⟩
        simp only [CharacterHistory.record, if_true]
        refine ⟨hqueue, h.ready, fun hunread => ?_, h.enabled⟩
        refine iff_of_false (fun hmissed => ?_) (fun hnot => (by cases hnot.2))
        exact ((h.missed_iff hunread).mp hmissed).1 hpending
      · have hne : keyboardInterruptVector.toNat ≠ vec.toNat :=
          fun heq => hvec (BitVec.eq_of_toNat_eq heq.symm)
        have hrecord : history.record (.checkInterrupts cpuPriority) (some vec) ⟨data, c⟩ =
            history := by simp [CharacterHistory.record, hvec]
        rw [hrecord]
        exact h.withController hqueue ((hhas _).trans (and_iff_left hne))

theorem keyboardInvariant_alert (request : OtherRequest) {s : KeyboardSystem}
    {history : CharacterHistory} (h : KeyboardInvariant (s, history)) :
    ∃ s', keyboardEvent (.alert request) s = some (none, s') ∧
      KeyboardInvariant (s', history) := by
  obtain ⟨data, c⟩ := s
  obtain ⟨c', halert, hqueue, hpending⟩ :=
    interruptControllerAlert_refines h.queue request.vec_lt request.priority_lt
  have hne : keyboardInterruptVector.toNat ≠ request.vec.toNat :=
    fun heq => request.vec_ne (BitVec.eq_of_toNat_eq heq.symm)
  refine ⟨⟨data, c'⟩, by simp [keyboardEvent, halert], h.withController hqueue ?_⟩
  rw [KeyboardPending, hpending, Requests.has_alert]
  exact or_iff_left hne

/-- The read of the data register ends the story of the character. -/
theorem keyboardInvariant_readData {s : KeyboardSystem} {history : CharacterHistory}
    (h : KeyboardInvariant (s, history)) : ∃ s', keyboardEvent .readData s = some (none, s') ∧
      KeyboardInvariant (s', { history with unread := false }) := by
  obtain ⟨data, c⟩ := s
  refine ⟨⟨⟨data.kbsr &&& readyBitSetOff, data.kbdr⟩, c⟩, rfl, h.queue, ?_, ?_, ?_⟩ <;>
    exact fun hunread => (by cases hunread)

/-- **One event keeps the invariant**, unless it switches interrupts on over a character that
arrived unannounced. -/
theorem recordedKeyboardEvent_keeps (e : KeyboardEvent) (s : KeyboardSystem × CharacterHistory)
    (h : KeyboardInvariant s) (hleaves : LeavesMissedOff e s) :
    ∃ out s', recordedKeyboardEvent e s = some (out, s') ∧ KeyboardInvariant s' := by
  obtain ⟨s, history⟩ := s
  suffices ∃ out s', keyboardEvent e s = some (out, s') ∧
      KeyboardInvariant (s', history.record e out s) by
    obtain ⟨out, s', hstep, hinv⟩ := this
    exact ⟨out, (s', history.record e out s), by simp [recordedKeyboardEvent, hstep], hinv⟩
  cases e with
  | input character => exact ⟨none, keyboardInvariant_input character h⟩
  | readStatus => exact ⟨none, s, rfl, h⟩
  | readData => exact ⟨none, keyboardInvariant_readData h⟩
  | writeStatus value => exact ⟨none, keyboardInvariant_writeStatus h hleaves⟩
  | writeData value => exact ⟨none, s, rfl, h⟩
  | checkInterrupts cpuPriority => exact keyboardInvariant_checkInterrupts cpuPriority h
  | alert request => exact ⟨none, keyboardInvariant_alert request h⟩

/-- Such an event loses the interrupt at once. -/
theorem recordedKeyboardEvent_loses (e : KeyboardEvent) (s : KeyboardSystem × CharacterHistory)
    (out : Option Byte) (s' : KeyboardSystem × CharacterHistory) (h : KeyboardInvariant s)
    (hleaves : ¬ LeavesMissedOff e s) (hstep : recordedKeyboardEvent e s = some (out, s')) :
    ¬ NotLost s' := by
  obtain ⟨⟨data, c⟩, history⟩ := s
  simp only [LeavesMissedOff, not_forall, not_not] at hleaves
  obtain ⟨value, rfl, hon, hunread, hmissed⟩ := hleaves
  rw [recordedKeyboardEvent, keyboardEvent_writeStatus] at hstep
  obtain ⟨-, rfl⟩ := Prod.mk.inj (Option.some.inj hstep)
  obtain ⟨hready, henable⟩ := kbsr_write data.kbsr value
  obtain ⟨hpending, hdelivered⟩ := (h.missed_iff hunread).mp hmissed
  intro hnot
  rcases hnot hunread (hready (h.ready hunread)) (henable.trans hon) with hold | hold
  · exact hpending hold
  · exact absurd (hold.symm.trans hdelivered) (by decide)

/-! ### Every run -/

/-- A new keyboard and a new controller, and no character so far. -/
def keyboardSystemNew : KeyboardSystem × CharacterHistory :=
  (⟨keyboardInit, interruptControllerNew⟩, ⟨false, false, false⟩)

theorem keyboardInvariant_new : KeyboardInvariant keyboardSystemNew where
  queue := queueInvariant_new
  ready h := by cases h
  missed_iff h := by cases h
  enabled h := by cases h

/-- **No key is lost, as long as interrupts are not switched on too late.** In every run of
characters, register accesses, deliveries and requests of other devices, the interrupt of a
character that is unread, with the ready bit and the enable bit on, is pending or was delivered
since the character arrived, exactly when no write switches the enable bit on while a character is
unread that arrived with it off and no interrupt of the keyboard pending. -/
theorem keyboard_notLost_iff (events : List KeyboardEvent) :
    Safe recordedKeyboardEvent NotLost events keyboardSystemNew ↔
      Along recordedKeyboardEvent LeavesMissedOff events keyboardSystemNew :=
  safe_iff_along (fun _ h => h.notLost) recordedKeyboardEvent_keeps recordedKeyboardEvent_loses
    keyboardInvariant_new

/-! ### Simulators with keyboards -/

section Simulators

variable {ι α : Type} {env : Env KeyboardData ι} {m m' : Machine KeyboardData ι}
  {sim sim' : Simulator KeyboardData ι} {device : DevicePtr} {address value : Word}

/-- The keyboard and the controller of a machine. -/
def keyboardOf (m : Machine KeyboardData ι) : KeyboardSystem := ⟨m.devices, m.interCont⟩

/-- Events of the keyboard and of the CPU, without requests of other devices. -/
def KeyboardEvent.Own : KeyboardEvent → Prop
  | .alert _ => False
  | _ => True

/-- What the controller and the CPU see of an event: a request that is raised, or a vector that is
delivered. -/
inductive ControllerEffect
  | alert (request : Byte × Byte)
  | delivery (vec : Byte)
  deriving DecidableEq, Repr

/-- The requests that the keyboard raises in an event. -/
def keyboardAlerts : KeyboardEvent → KeyboardSystem → List (Byte × Byte)
  | .input character, s => callbackAlerts (keyboardOnInput character) s.data
  | .readStatus, s => callbackAlerts (keyboardReadRegister kbsrAddress) s.data
  | .readData, s => callbackAlerts (keyboardReadRegister kbdrAddress) s.data
  | .writeStatus value, s => callbackAlerts (keyboardWriteRegister kbsrAddress value) s.data
  | .writeData value, s => callbackAlerts (keyboardWriteRegister kbdrAddress value) s.data
  | .checkInterrupts _, _ => []
  | .alert request, _ => [(request.vec, request.priority)]

/-- The effects of some alerts, and of a delivery after them. -/
def effects (alerts : List (Byte × Byte)) (delivered : Option Byte) : List ControllerEffect :=
  alerts.map .alert ++ (delivered.map .delivery).toList

theorem effects_append (alerts alerts' : List (Byte × Byte)) (delivered : Option Byte) :
    effects alerts none ++ effects alerts' delivered = effects (alerts ++ alerts') delivered := by
  simp [effects]

/-- An event of the keyboard, and an event of a simulator, with what is seen of them. -/
abbrev keyboardEffects : KeyboardEvent → KeyboardSystem →
    Option (List ControllerEffect × KeyboardSystem) :=
  observed keyboardEvent fun e s delivered => effects (keyboardAlerts e s) delivered

abbrev simEffects (env : Env KeyboardData ι) : SimEvent → Simulator KeyboardData ι →
    Option (List ControllerEffect × Simulator KeyboardData ι) :=
  observed (simEvent env) fun e sim _ =>
    effects (eventAlerts env e sim) ((requestDelivered sim e).map Prod.fst)

/-- Own events lead from the one to the other, with these effects. -/
abbrev KeyboardTraces : KeyboardSystem → List ControllerEffect → KeyboardSystem → Prop :=
  Traces keyboardEffects KeyboardEvent.Own

/-- One event. -/
theorem keyboardTraces_single {e : KeyboardEvent} {delivered : Option Byte} {s s' : KeyboardSystem}
    (hown : e.Own) (h : keyboardEvent e s = some (delivered, s')) :
    KeyboardTraces s (effects (keyboardAlerts e s) delivered) s' :=
  Traces.single hown (by rw [keyboardEffects, observed, h]; rfl)

theorem foldlM_hostCall_keyboardOf {calls : List HostCall}
    (h : calls.foldlM (hostCall env) m = some m') :
    m'.devices = m.devices ∧ calls.foldlM controllerCall m.interCont = some m'.interCont := by
  induction calls generalizing m with
  | nil =>
    obtain rfl := Option.some.inj h
    exact ⟨rfl, rfl⟩
  | cons call calls ih =>
    rw [List.foldlM_cons] at h
    obtain ⟨m₁, hcall, h⟩ := Option.bind_eq_some_iff.mp h
    obtain ⟨hdevices, hrest⟩ := ih h
    cases call with
    | writeOutput output =>
      obtain rfl := Option.some.inj hcall
      exact ⟨hdevices, hrest⟩
    | alertInterrupt vec priority =>
      obtain ⟨interCont, halert, hcall⟩ := Option.bind_eq_some_iff.mp hcall
      obtain rfl := Option.some.inj hcall
      exact ⟨hdevices, by rw [List.foldlM_cons, controllerCall, halert]; exact hrest⟩

/-- A callback that the machine runs is a call of the keyboard. -/
theorem runCallback_keyboardOf {callback : Callback KeyboardData α} {a : α}
    (h : runCallback env device callback m = some (a, m')) :
    (keyboardOf m).call callback = some (a, keyboardOf m') := by
  obtain ⟨⟨value, data, calls⟩, hcallback, h⟩ := Option.bind_eq_some_iff.mp h
  obtain ⟨-, -, h⟩ := Option.bind_eq_some_iff.mp h
  obtain ⟨m₁, hcalls, h⟩ := Option.bind_eq_some_iff.mp h
  obtain ⟨rfl, rfl⟩ := Prod.mk.inj (Option.some.inj h)
  obtain ⟨hdevices, hinterCont⟩ := foldlM_hostCall_keyboardOf hcalls
  have hdata : m₁.devices = data := hdevices
  rw [KeyboardSystem.call, keyboardOf, hcallback]
  simp [hinterCont, keyboardOf, hdata]

theorem keyboardTraces_read {s s' : KeyboardSystem} {a : Word}
    (h : s.call (keyboardReadRegister address) = some (a, s')) :
    KeyboardTraces s (effects (callbackAlerts (keyboardReadRegister address) s.data) none) s' ∧
      s'.interCont = s.interCont := by
  by_cases hdata : address = kbdrAddress
  · subst hdata
    have hstep : keyboardEvent .readData s = some (none, s') := by rw [keyboardEvent, h]; rfl
    refine ⟨keyboardTraces_single (e := .readData) trivial hstep, ?_⟩
    obtain ⟨-, rfl⟩ := Prod.mk.inj (Option.some.inj h)
    rfl
  · by_cases hstatus : address = kbsrAddress
    · subst hstatus
      have hstep : keyboardEvent .readStatus s = some (none, s') := by rw [keyboardEvent, h]; rfl
      refine ⟨keyboardTraces_single (e := .readStatus) trivial hstep, ?_⟩
      obtain ⟨-, rfl⟩ := Prod.mk.inj (Option.some.inj h)
      rfl
    · simp [KeyboardSystem.call, keyboardReadRegister, hdata, hstatus] at h

theorem keyboardTraces_write {s s' : KeyboardSystem} {u : Unit}
    (h : s.call (keyboardWriteRegister address value) = some (u, s')) :
    KeyboardTraces s (effects (callbackAlerts (keyboardWriteRegister address value) s.data) none)
        s' ∧
      s'.interCont = s.interCont := by
  by_cases hstatus : address = kbsrAddress
  · subst hstatus
    have hstep : keyboardEvent (.writeStatus value) s = some (none, s') := by
      rw [keyboardEvent, h]
      rfl
    refine ⟨keyboardTraces_single (e := .writeStatus value) trivial hstep, ?_⟩
    obtain ⟨-, rfl⟩ := Prod.mk.inj (Option.some.inj h)
    rfl
  · have hnothing : keyboardWriteRegister address value s.data = some ((), s.data, []) := by
      rw [keyboardWriteRegister, if_neg hstatus]
    rw [KeyboardSystem.call, hnothing] at h
    obtain ⟨-, rfl⟩ := Prod.mk.inj (Option.some.inj h)
    rw [callbackAlerts, hnothing]
    exact ⟨Traces.refl _, rfl⟩

/-- The machine after some own events that raised these alerts and left the controller alone. -/
def Accessed (m : Machine KeyboardData ι) (alerts : List (Byte × Byte))
    (m' : Machine KeyboardData ι) : Prop :=
  KeyboardTraces (keyboardOf m) (effects alerts none) (keyboardOf m') ∧
    m'.interCont = m.interCont

theorem Accessed.trans {m₁ m₂ m₃ : Machine KeyboardData ι} {alerts alerts' : List (Byte × Byte)}
    (h : Accessed m₁ alerts m₂) (h' : Accessed m₂ alerts' m₃) :
    Accessed m₁ (alerts ++ alerts') m₃ := by
  refine ⟨?_, h'.2.trans h.2⟩
  rw [← effects_append]
  exact h.1.trans h'.1

theorem Accessed.refl (m : Machine KeyboardData ι) : Accessed m [] m := ⟨Traces.refl _, rfl⟩

section Keyboards

variable (hkeyboard : ∀ device, env.device device = keyboardDevice)

include hkeyboard

/-- One bus access. -/
theorem handler_accessed {q : BusRequest} {x : BusResponse q × Machine KeyboardData ι}
    (h : (initBusAccessor env).handler q m = some x) : Accessed m (accessAlerts env m q) x.2 := by
  cases q with
  | read address =>
    replace h : busRead env m address = some x := h
    rw [busRead] at h
    rw [accessAlerts, registerAlerts]
    by_cases hflag : (m.bus.memory address).attachmentFlag = true
    · rw [if_pos hflag] at h ⊢
      obtain ⟨attachment, hsearch, h⟩ := Option.bind_eq_some_iff.mp h
      rw [hsearch]
      dsimp only
      rw [hkeyboard] at h ⊢
      exact keyboardTraces_read (runCallback_keyboardOf h)
    · rw [if_neg hflag] at h ⊢
      obtain rfl := Option.some.inj h
      exact Accessed.refl _
  | write address value =>
    obtain ⟨m₁, hwrite, rfl⟩ := Option.map_eq_some_iff.mp h
    replace h : busWrite env m address value = some m₁ := hwrite
    rw [busWrite] at h
    rw [accessAlerts, registerAlerts]
    by_cases hflag : (m.bus.memory address).attachmentFlag = true
    · rw [if_pos hflag] at h ⊢
      obtain ⟨attachment, hsearch, h⟩ := Option.bind_eq_some_iff.mp h
      obtain ⟨⟨u, m₂⟩, hcallback, h⟩ := Option.bind_eq_some_iff.mp h
      obtain rfl := Option.some.inj h
      rw [hsearch]
      dsimp only
      rw [hkeyboard] at hcallback ⊢
      exact keyboardTraces_write (runCallback_keyboardOf hcallback)
    · rw [if_neg hflag] at h ⊢
      obtain rfl := Option.some.inj h
      exact Accessed.refl _

/-- A program of the CPU reads and writes the registers of the keyboard, and nothing more. -/
theorem run_accessed {p : BusProg α} {a : α}
    (h : p.run (initBusAccessor env).handler m = some (a, m')) :
    Accessed m (progAlerts env p m) m' := by
  induction p generalizing m with
  | ret b =>
    obtain ⟨-, rfl⟩ := Prod.mk.inj (Option.some.inj h)
    exact Accessed.refl m
  | ask q next ih =>
    rw [Prog.run_ask] at h
    obtain ⟨x, hq, h⟩ := Option.bind_eq_some_iff.mp h
    rw [progAlerts, hq]
    exact (handler_accessed hkeyboard hq).trans (ih x.1 h)

theorem inputs_keyboard {input : Word} {devices : List DevicePtr}
    (h : devices.foldlM (callOnInput env input) m = some m') :
    KeyboardTraces (keyboardOf m) (effects (inputAlerts env input devices m) none)
      (keyboardOf m') := by
  induction devices generalizing m with
  | nil =>
    obtain rfl := Option.some.inj h
    exact Traces.refl _
  | cons device devices ih =>
    rw [List.foldlM_cons] at h
    obtain ⟨m₁, hcall, h⟩ := Option.bind_eq_some_iff.mp h
    rw [inputAlerts, hcall, ← effects_append]
    refine Traces.trans ?_ (ih h)
    obtain ⟨onInput, honInput, hcall⟩ := Option.bind_eq_some_iff.mp hcall
    obtain ⟨⟨u, m₃⟩, hcallback, hcall⟩ := Option.bind_eq_some_iff.mp hcall
    obtain rfl := Option.some.inj hcall
    rw [hkeyboard] at honInput ⊢
    obtain rfl := Option.some.inj honInput
    have hstep : keyboardEvent (.input input) (keyboardOf m) = some (none, keyboardOf m₃) := by
      rw [keyboardEvent, runCallback_keyboardOf hcallback]
      rfl
    exact keyboardTraces_single (e := .input input) trivial hstep

/-- A keyboard that is started is left as it is. -/
theorem callStart_keyboard (h : callStart env m device = some m') :
    keyboardOf m' = keyboardOf m := by
  obtain ⟨⟨u, m₁⟩, hcallback, h⟩ := Option.bind_eq_some_iff.mp h
  obtain rfl := Option.some.inj h
  rw [hkeyboard] at hcallback
  have hcall := runCallback_keyboardOf hcallback
  obtain ⟨-, heq⟩ := Prod.mk.inj (Option.some.inj hcall)
  exact heq.symm

/-- A delivery: its accesses, and then the request is taken. -/
theorem delivered_keyboard {vec priority : Byte} {cpu : Cpu} {interCont : InterruptController}
    (haccepted : accepted sim = some (vec, priority))
    (hpeek : interruptControllerPeek sim.machine.interCont = some (some (vec, priority)))
    (hdeliver : (cpuExecuteInterrupt sim.cpu vec priority).run (initBusAccessor env).handler
      sim.machine = some (cpu, m))
    (htake : interruptControllerTake m.interCont = some interCont) :
    KeyboardTraces (keyboardOf sim.machine)
      (effects (progAlerts env (cpuExecuteInterrupt sim.cpu vec priority) sim.machine) (some vec))
      ⟨m.devices, interCont⟩ := by
  obtain ⟨htraces, hinterCont⟩ := run_accessed hkeyboard hdeliver
  have hlt : ¬ priority.setWidth 16 ≤ psrPriority (sim.cpu.registers .psr) := by
    rw [accepted, Option.filter_eq_some_iff] at haccepted
    exact BitVec.not_le.mpr (by simpa using haccepted.2)
  have hstep : keyboardEvent (.checkInterrupts (psrPriority (sim.cpu.registers .psr)))
      (keyboardOf m) = some (some vec, ⟨m.devices, interCont⟩) := by
    simp [keyboardEvent, keyboardOf, hinterCont, hpeek, hlt, hinterCont ▸ htake]
  have hboth := htraces.trans (keyboardTraces_single (e := .checkInterrupts _) trivial hstep)
  rwa [effects_append, keyboardAlerts, List.append_nil] at hboth

/-- **Simulators with keyboards.** Where every device is a keyboard, whatever the simulator does
is, for the keyboard and the controller, a run of their events, with the same alerts and
deliveries. -/
theorem simEvent_keyboard {e : SimEvent} {seen : List ControllerEffect}
    (h : simEffects env e sim = some (seen, sim')) :
    KeyboardTraces (keyboardOf sim.machine) seen (keyboardOf sim'.machine) := by
  obtain ⟨⟨out, sim₁⟩, hstep, heq⟩ := Option.map_eq_some_iff.mp h
  obtain ⟨rfl, rfl⟩ := Prod.mk.inj heq
  show KeyboardTraces _ (effects (eventAlerts env e sim) _) (keyboardOf sim₁.machine)
  cases e with
  | execute =>
    obtain ⟨running, cpu, m, hrun, rfl⟩ := simEvent_execute hstep
    exact (run_accessed hkeyboard hrun).1
  | checkExceptions =>
    obtain ⟨cpu, m, hrun, rfl⟩ := simEvent_checkExceptions hstep
    exact (run_accessed hkeyboard hrun).1
  | between b =>
    cases between_step (simEvent_between hstep) with
    | idle deviceIo hidle =>
      rw [eventAlerts_of_idle hidle, requestDelivered_of_idle hidle]
      exact Traces.refl _
    | register hreg => rcases hreg with rfl | ⟨-, rfl⟩ <;> exact Traces.refl _
    | refused hattach hfail =>
      simp only [eventAlerts, hattach, if_pos hfail]
      exact Traces.refl _
    | @attached device _ _ _ hattach hsuccess hstart =>
      have hsame := callStart_keyboard hkeyboard hstart
      have halerts : eventAlerts env (.between (.attachDevice device)) sim = [] := by
        simp only [eventAlerts, hattach, if_neg hsuccess]
        rw [hkeyboard]
        rfl
      rw [halerts, simulatorCheckDeviceSubscriptions_machine, hsame]
      exact Traces.refl _
    | @wrote address value machine hwrite =>
      have hhandler : (initBusAccessor env).handler (.write address value) sim.machine =
          some ((), machine) := Option.map_eq_some_iff.mpr ⟨machine, hwrite, rfl⟩
      exact (handler_accessed hkeyboard hhandler).1
    | input hcharacter hinput =>
      rw [eventAlerts_of_character hcharacter, requestDelivered_of_character hcharacter]
      exact inputs_keyboard hkeyboard hinput
    | delivered haccepted hpeek hdeliver htake =>
      rw [← cpuExecuteInterrupt_eq] at hdeliver
      have htraces := delivered_keyboard hkeyboard haccepted hpeek hdeliver htake
      rw [eventAlerts_of_accepted haccepted, requestDelivered, haccepted]
      exact htraces

/-- Every simulator that the user interface reaches is reached by events, in which the CPU executes
the interrupts that it accepts; and the keyboard and the controller are reached by events of theirs,
with the same alerts and deliveries in the same order. -/
theorem reachable_keyboard {deviceIo : ι} {sim₀ : Simulator KeyboardData ι}
    {commands : List Command} {outs : List (Option ℤ)}
    (hnew : simulatorNew env keyboardInit deviceIo = some sim₀)
    (h : run (runCommand env) commands sim₀ = some (outs, sim)) :
    ∃ events seen, run (simEffects env) events sim₀ = some (seen, sim) ∧
      RunDelivers env events sim₀ ∧
      KeyboardTraces keyboardSystemNew.1 seen.flatten (keyboardOf sim.machine) := by
  have hstart : keyboardOf sim₀.machine = keyboardSystemNew.1 := by
    obtain rfl := Option.some.inj hnew
    rfl
  obtain ⟨events, seen, hrun⟩ : ∃ events seen, run (simEffects env) events sim₀ =
      some (seen, sim) := by
    refine run_invariant (I := fun sim => ∃ events seen, run (simEffects env) events sim₀ =
      some (seen, sim)) (fun command sim₁ status sim₂ hsim₁ hcommand => ?_) ⟨[], [], rfl⟩ h
    obtain ⟨events, seen, hrun⟩ := hsim₁
    obtain ⟨events₁, outs₁, -, hevents⟩ := runCommand_leads hcommand
    obtain ⟨outs₂, hparts⟩ := run_expand hevents
    obtain ⟨seen₂, hseen⟩ := run_observed (fun e sim _ =>
      effects (eventAlerts env e sim) ((requestDelivered sim e).map Prod.fst)) hparts
    exact ⟨_, _, run_append hrun hseen⟩
  have htraces : KeyboardTraces (keyboardOf sim₀.machine) seen.flatten (keyboardOf sim.machine) :=
    Traces.of_run (f := fun sim => keyboardOf sim.machine)
      (fun _ _ _ _ hstep => simEvent_keyboard hkeyboard hstep) hrun
  exact ⟨events, seen, hrun, runDelivers env events sim₀, hstart ▸ htraces⟩

end Keyboards

end Simulators

/-! ### A key that is lost -/

/-- The simulator of a keyboard, on which a key is pressed before interrupts are enabled. -/
def lateEnable : Option (Simulator KeyboardData Unit) := do
  let sim ← simulatorNew keyboardEnv keyboardInit ()
  let (_, sim) ← run (runCommand keyboardEnv)
    [.attachDevice 0, .updateDevicesInput 0x41, .writeAddress kbsrAddress 0x4000] sim
  return sim

/-- The status register has both bits on, the character is unread, and no interrupt is pending. -/
theorem key_lost : ¬ Safe recordedKeyboardEvent NotLost [.input 0x41, .writeStatus 0x4000]
    keyboardSystemNew ∧
    lateEnable.map (fun sim => (sim.machine.devices, sim.machine.interCont.queueHeapSize)) =
      some (⟨0xC000, 0x41⟩, 0) := by
  refine ⟨?_, by decide +kernel⟩
  rintro ⟨-, out, s₁, hinput, -, out', s₂, hwrite, hnot⟩
  obtain ⟨-, rfl⟩ := Prod.mk.inj (Option.some.inj hinput)
  obtain ⟨-, rfl⟩ := Prod.mk.inj (Option.some.inj hwrite)
  have hnone : ¬ KeyboardPending interruptControllerNew := by decide +kernel
  rcases hnot rfl (by decide) (by decide) with hpending | hdelivered
  · exact hnone hpending
  · cases hdelivered

end Lc3Simulator
