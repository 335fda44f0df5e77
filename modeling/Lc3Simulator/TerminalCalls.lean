import Lc3Simulator.EnvAlike

/-!
# What a simulator asks of its terminal

The simulator reaches the terminal through the four functions of `struct device_io`. Which of them
it calls, and in which order, is a protocol that an implementation may rely on: the one of
`device_io_impl.c` changes the settings of a real terminal in `start` and puts them back in `end`,
and would lose them if the two were not called in turn.

The calls are written down by a terminal of their own: `DeviceIo.logged` does what the terminal
underneath does and keeps a list. Nothing the simulator does depends on the list, so it is a record
of the calls that the plain terminal gets as well.

## Main definitions

* `Prints` — only `write_char` was called
* `IoCall`, `IoEvent`, `DeviceIo.logged` — calls, and the terminal that writes them down
* `Genuine` — events that the terminal can have made
* `Command.Conversation`, `Conversations` — the calls of one command, and of some

## Main results

* `runOnBus_prints`, `runCommand_prints` — what only prints
* `exists_log`, `log_conversations` — the list, and what is in it
* `simulator_conversations` — the calls of any commands
-/

namespace Lc3Simulator

open Interaction Transition

variable {ω ι α : Type}

/-! ### Nothing but output -/

/-- A command that starts the terminal. -/
def Command.Runs : Command → Prop
  | .step _ | .runUntilEnd _ => True
  | _ => False

/-- From `s` to `s'` by calls of `write_char`. -/
def Prints (io : DeviceIo ι) (s s' : ι) : Prop :=
  ∃ output : List Byte, s' = output.foldl (fun s c => io.writeChar c s) s

theorem Prints.refl {io : DeviceIo ι} (s : ι) : Prints io s s := ⟨[], rfl⟩

theorem Prints.trans {io : DeviceIo ι} {s s₁ s' : ι} (h : Prints io s s₁) (h' : Prints io s₁ s') :
    Prints io s s' := by
  obtain ⟨output, rfl⟩ := h
  obtain ⟨output', rfl⟩ := h'
  exact ⟨output ++ output', (List.foldl_append ..).symm⟩

section Output

variable {env : Env ω ι} {m m' : Machine ω ι} {sim sim' : Simulator ω ι}

theorem hostCall_prints {call : HostCall} (h : hostCall env m call = some m') :
    Prints env.deviceIo m.deviceIo m'.deviceIo := by
  cases call with
  | writeOutput output =>
    obtain rfl := Option.some.inj h
    exact ⟨[output], rfl⟩
  | alertInterrupt vec priority =>
    obtain ⟨_, -, h⟩ := Option.bind_eq_some_iff.mp h
    obtain rfl := Option.some.inj h
    exact Prints.refl _

theorem runCallback_prints {device : DevicePtr} {callback : Callback ω α} {a : α}
    (h : runCallback env device callback m = some (a, m')) :
    Prints env.deviceIo m.deviceIo m'.deviceIo := by
  obtain ⟨⟨b, devices, calls⟩, -, h⟩ := Option.bind_eq_some_iff.mp h
  obtain ⟨-, -, h⟩ := Option.bind_eq_some_iff.mp h
  obtain ⟨m₁, hcalls, h⟩ := Option.bind_eq_some_iff.mp h
  obtain ⟨-, rfl⟩ := Prod.mk.inj (Option.some.inj h)
  exact foldlM_invariant (I := fun m₁ => Prints env.deviceIo m.deviceIo m₁.deviceIo)
    (fun call _ _ hm₁ hcall => hm₁.trans (hostCall_prints hcall)) (Prints.refl _) hcalls

theorem busRead_prints {address value : Word} (h : busRead env m address = some (value, m')) :
    Prints env.deviceIo m.deviceIo m'.deviceIo := by
  rw [busRead] at h
  split at h
  · obtain ⟨attachment, -, h⟩ := Option.bind_eq_some_iff.mp h
    exact runCallback_prints h
  · obtain ⟨-, rfl⟩ := Prod.mk.inj (Option.some.inj h)
    exact Prints.refl _

theorem busWrite_prints {address value : Word} (h : busWrite env m address value = some m') :
    Prints env.deviceIo m.deviceIo m'.deviceIo := by
  rw [busWrite] at h
  split at h
  · obtain ⟨attachment, -, h⟩ := Option.bind_eq_some_iff.mp h
    obtain ⟨⟨_, m₁⟩, hcallback, h⟩ := Option.bind_eq_some_iff.mp h
    obtain rfl := Option.some.inj h
    exact runCallback_prints hcallback
  · obtain rfl := Option.some.inj h
    exact Prints.refl _

/-- **A program of the CPU only prints.** -/
theorem runOnBus_prints {p : BusProg α} {a : α} (h : runOnBus env p m = some (a, m')) :
    Prints env.deviceIo m.deviceIo m'.deviceIo := by
  refine Prog.run_invariant (I := fun m₁ => Prints env.deviceIo m.deviceIo m₁.deviceIo)
    (fun q m₁ x hm₁ hq => hm₁.trans ?_) p (Prints.refl _) h
  cases q with
  | read address => exact busRead_prints (show busRead env m₁ address = some (x.1, x.2) from hq)
  | write address value =>
    obtain ⟨m₂, hwrite, rfl⟩ := Option.map_eq_some_iff.mp hq
    exact busWrite_prints hwrite

theorem tick_prints {running : Bool} (h : tick env sim = some (running, sim')) :
    Prints env.deviceIo sim.machine.deviceIo sim'.machine.deviceIo := by
  obtain ⟨cpu, m, hrun, rfl⟩ := tick_eq_some h
  exact runOnBus_prints hrun

theorem callOnInput_prints {input : Word} {device : DevicePtr}
    (h : callOnInput env input m device = some m') :
    Prints env.deviceIo m.deviceIo m'.deviceIo := by
  obtain ⟨onInput, -, h⟩ := Option.bind_eq_some_iff.mp h
  obtain ⟨⟨_, m₁⟩, hcallback, h⟩ := Option.bind_eq_some_iff.mp h
  obtain rfl := Option.some.inj h
  exact runCallback_prints hcallback

theorem simulatorUpdateDevicesInput_prints {input : Word}
    (h : simulatorUpdateDevicesInput env sim input = some sim') :
    Prints env.deviceIo sim.machine.deviceIo sim'.machine.deviceIo := by
  obtain ⟨devices, -, h⟩ := Option.bind_eq_some_iff.mp h
  obtain ⟨machine, hcalls, h⟩ := Option.bind_eq_some_iff.mp h
  obtain rfl := Option.some.inj h
  exact foldlM_invariant (I := fun m₁ => Prints env.deviceIo sim.machine.deviceIo m₁.deviceIo)
    (fun device _ _ hm₁ hcall => hm₁.trans (callOnInput_prints hcall)) (Prints.refl _) hcalls

theorem simulatorCheckInterrupts_prints (h : simulatorCheckInterrupts env sim = some sim') :
    Prints env.deviceIo sim.machine.deviceIo sim'.machine.deviceIo := by
  obtain ⟨pending, -, h⟩ := Option.bind_eq_some_iff.mp h
  match pending, h with
  | none, h =>
    obtain rfl := Option.some.inj h
    exact Prints.refl _
  | some (vec, priority), h =>
    obtain ⟨⟨⟨taken, cpu⟩, machine⟩, hrun, h⟩ := Option.bind_eq_some_iff.mp h
    cases taken with
    | false =>
      obtain rfl := Option.some.inj h
      exact runOnBus_prints hrun
    | true =>
      obtain ⟨interCont, -, h⟩ := Option.bind_eq_some_iff.mp h
      obtain rfl := Option.some.inj h
      have hprints : Prints env.deviceIo sim.machine.deviceIo machine.deviceIo :=
        runOnBus_prints hrun
      exact hprints

/-- A round reads once, and prints otherwise. -/
theorem loopBody_prints (h : loopBody env sim = some sim') :
    Prints env.deviceIo (env.deviceIo.getChar sim.machine.deviceIo).2.2 sim'.machine.deviceIo := by
  obtain ⟨sim₁, hinput, h⟩ := Option.bind_eq_some_iff.mp h
  obtain ⟨sim₂, hdevices, hinterrupts⟩ := Option.bind_eq_some_iff.mp h
  have hread : Prints env.deviceIo (env.deviceIo.getChar sim.machine.deviceIo).2.2
      sim₁.machine.deviceIo := by
    simp only [simulatorCheckInput] at hinput
    split at hinput
    · exact simulatorUpdateDevicesInput_prints hinput
    · obtain rfl := Option.some.inj hinput
      exact Prints.refl _
  have hsame : sim₂ = sim₁ := by
    rw [simulatorUpdateDevicesOnTick] at hdevices
    split at hdevices
    · exact (Option.some.inj hdevices).symm
    · exact (Option.some.inj hdevices).symm
    · cases hdevices
  subst hsame
  exact hread.trans (simulatorCheckInterrupts_prints hinterrupts)

theorem loadWords_prints {words : List Word} {address : Word}
    (h : loadWords env m address words = some m') :
    Prints env.deviceIo m.deviceIo m'.deviceIo := by
  induction words generalizing m address with
  | nil =>
    obtain rfl := Option.some.inj h
    exact Prints.refl _
  | cons word rest ih =>
    obtain ⟨m₁, hwrite, h⟩ := Option.bind_eq_some_iff.mp h
    exact (busWrite_prints hwrite).trans (ih h)

theorem simulatorLoadProgram_prints {words : List Word} {last status : ℤ}
    (h : simulatorLoadProgram env sim words last = some (status, sim')) :
    Prints env.deviceIo sim.machine.deviceIo sim'.machine.deviceIo := by
  cases words with
  | nil =>
    obtain ⟨-, rfl⟩ := Prod.mk.inj (Option.some.inj h)
    exact Prints.refl _
  | cons startingAddress rest =>
    obtain ⟨machine, hwords, h⟩ := Option.bind_eq_some_iff.mp h
    obtain ⟨-, rfl⟩ := Prod.mk.inj (Option.some.inj h)
    exact loadWords_prints hwords

theorem checkDeviceSubscriptions_machine (sim : Simulator ω ι) (device : DevicePtr) :
    (simulatorCheckDeviceSubscriptions env sim device).machine = sim.machine := by
  simp only [simulatorCheckDeviceSubscriptions]
  split_ifs <;> rfl

theorem simulatorAttachDevice_prints {device : DevicePtr} {status : ℤ}
    (h : simulatorAttachDevice env sim device = some (status, sim')) :
    Prints env.deviceIo sim.machine.deviceIo sim'.machine.deviceIo := by
  obtain ⟨⟨attached, bus⟩, -, h⟩ := Option.bind_eq_some_iff.mp h
  dsimp only at h
  split at h
  · obtain ⟨-, rfl⟩ := Prod.mk.inj (Option.some.inj h)
    exact Prints.refl _
  · obtain ⟨machine, hstart, h⟩ := Option.bind_eq_some_iff.mp h
    obtain ⟨-, rfl⟩ := Prod.mk.inj (Option.some.inj h)
    rw [checkDeviceSubscriptions_machine]
    obtain ⟨⟨_, m₁⟩, hcallback, hstart⟩ := Option.bind_eq_some_iff.mp hstart
    obtain rfl := Option.some.inj hstart
    have hprints := runCallback_prints hcallback
    exact hprints

/-- **A command that does not start the terminal only prints.** -/
theorem runCommand_prints {command : Command} (hnot : ¬ command.Runs) {out : Option ℤ}
    (h : runCommand env command sim = some (out, sim')) :
    Prints env.deviceIo sim.machine.deviceIo sim'.machine.deviceIo := by
  cases command with
  | attachDevice device =>
    obtain ⟨⟨status, sim₁⟩, hattach, h⟩ := Option.map_eq_some_iff.mp h
    obtain ⟨-, rfl⟩ := Prod.mk.inj h
    exact simulatorAttachDevice_prints hattach
  | writeAddress address value =>
    obtain ⟨sim₁, hwrite, h⟩ := Option.map_eq_some_iff.mp h
    obtain ⟨-, rfl⟩ := Prod.mk.inj h
    obtain ⟨machine, hbus, hwrite⟩ := Option.bind_eq_some_iff.mp hwrite
    obtain rfl := Option.some.inj hwrite
    have hprints := busWrite_prints hbus
    exact hprints
  | writeRegister reg value =>
    obtain ⟨-, rfl⟩ := Prod.mk.inj (Option.some.inj h)
    exact Prints.refl _
  | loadProgram words last =>
    obtain ⟨⟨status, sim₁⟩, hload, h⟩ := Option.map_eq_some_iff.mp h
    obtain ⟨-, rfl⟩ := Prod.mk.inj h
    exact simulatorLoadProgram_prints hload
  | updateDevicesInput input =>
    obtain ⟨sim₁, hinput, h⟩ := Option.map_eq_some_iff.mp h
    obtain ⟨-, rfl⟩ := Prod.mk.inj h
    exact simulatorUpdateDevicesInput_prints hinput
  | step amt => exact absurd trivial hnot
  | runUntilEnd n => exact absurd trivial hnot

end Output

/-! ### Writing the calls down -/

/-- A call through `struct device_io`, with the status that `start` and `end` return. -/
inductive IoCall
  | getChar
  | writeChar (output : Byte)
  | start (status : ℤ)
  | stop (status : ℤ)
  deriving DecidableEq, Repr

/-- A call, and the states of the terminal before and after it. -/
structure IoEvent (ι : Type) where
  call : IoCall
  before : ι
  after : ι

/-- The terminal that writes down what it is asked. -/
def DeviceIo.logged (io : DeviceIo ι) : DeviceIo (ι × List (IoEvent ι)) where
  getChar s :=
    let (status, c, t) := io.getChar s.1
    (status, c, t, s.2 ++ [⟨.getChar, s.1, t⟩])
  writeChar output s :=
    let t := io.writeChar output s.1
    (t, s.2 ++ [⟨.writeChar output, s.1, t⟩])
  ioStart s :=
    let (status, t) := io.ioStart s.1
    (status, t, s.2 ++ [⟨.start status, s.1, t⟩])
  ioEnd s :=
    let (status, t) := io.ioEnd s.1
    (status, t, s.2 ++ [⟨.stop status, s.1, t⟩])

/-- What an event says is what the terminal does. -/
def IoEvent.Made (io : DeviceIo ι) (e : IoEvent ι) : Prop :=
  match e.call with
  | .getChar => e.after = (io.getChar e.before).2.2
  | .writeChar output => e.after = io.writeChar output e.before
  | .start status => (status, e.after) = io.ioStart e.before
  | .stop status => (status, e.after) = io.ioEnd e.before

/-- The events lead from `s` to `s'`, each from where the one before it ended. -/
def Genuine (io : DeviceIo ι) : ι → List (IoEvent ι) → ι → Prop
  | s, [], s' => s' = s
  | s, e :: log, s' => e.before = s ∧ e.Made io ∧ Genuine io e.after log s'

theorem Genuine.snoc {io : DeviceIo ι} {s : ι} {log : List (IoEvent ι)} {e : IoEvent ι}
    (h : Genuine io s log e.before) (hmade : e.Made io) : Genuine io s (log ++ [e]) e.after := by
  induction log generalizing s with
  | nil => exact ⟨h, hmade, rfl⟩
  | cons first log ih => exact ⟨h.1, h.2.1, ih h.2.2⟩

/-- The same devices and C library with the calls written down. -/
def Env.logged (env : Env ω ι) : Env ω (ι × List (IoEvent ι)) :=
  ⟨env.libc, env.device, env.deviceIo.logged⟩

/-- The same simulator on another terminal. -/
def Simulator.withIo {κ : Type} (sim : Simulator ω ι) (deviceIo : κ) : Simulator ω κ :=
  sim.withStates (sim.machine.devices, deviceIo)

/-- The plain terminal is in the state the list ends in. -/
def Records (io : DeviceIo ι) (s₀ s : ι) (t : ι × List (IoEvent ι)) : Prop :=
  t.1 = s ∧ Genuine io s₀ t.2 s

/-- A terminal that writes its calls down answers like the plain one. -/
theorem Records.getChar {io : DeviceIo ι} {s₀ s : ι} {t : ι × List (IoEvent ι)}
    (h : Records io s₀ s t) : (io.getChar s).1 = (io.logged.getChar t).1 ∧
      (io.getChar s).2.1 = (io.logged.getChar t).2.1 ∧
      Records io s₀ (io.getChar s).2.2 (io.logged.getChar t).2.2 := by
  obtain ⟨rfl, h⟩ := h
  exact ⟨rfl, rfl, rfl, Genuine.snoc (e := ⟨.getChar, _, _⟩) h rfl⟩

theorem Records.writeChar {io : DeviceIo ι} {s₀ s : ι} {t : ι × List (IoEvent ι)}
    (h : Records io s₀ s t) (output : Byte) :
    Records io s₀ (io.writeChar output s) (io.logged.writeChar output t) := by
  obtain ⟨rfl, h⟩ := h
  exact ⟨rfl, Genuine.snoc (e := ⟨.writeChar output, _, _⟩) h rfl⟩

theorem Records.ioStart {io : DeviceIo ι} {s₀ s : ι} {t : ι × List (IoEvent ι)}
    (h : Records io s₀ s t) : (io.ioStart s).1 = (io.logged.ioStart t).1 ∧
      Records io s₀ (io.ioStart s).2 (io.logged.ioStart t).2 := by
  obtain ⟨rfl, h⟩ := h
  exact ⟨rfl, rfl, Genuine.snoc (e := ⟨.start _, _, _⟩) h rfl⟩

theorem Records.ioEnd {io : DeviceIo ι} {s₀ s : ι} {t : ι × List (IoEvent ι)}
    (h : Records io s₀ s t) : (io.ioEnd s).1 = (io.logged.ioEnd t).1 ∧
      Records io s₀ (io.ioEnd s).2 (io.logged.ioEnd t).2 := by
  obtain ⟨rfl, h⟩ := h
  exact ⟨rfl, rfl, Genuine.snoc (e := ⟨.stop _, _, _⟩) h rfl⟩

/-- The same devices, and a terminal that writes its calls down. -/
def Logs (env : Env ω ι) (s₀ : ι) (_ : List Byte) (s : ω × ι) (t : ω × (ι × List (IoEvent ι))) :
    Prop :=
  t.1 = s.1 ∧ Records env.deviceIo s₀ s.2 t.2

theorem Logs.callback {env : Env ω ι} {s₀ : ι} (callback : Callback ω α) :
    CallbackAlike (Logs env s₀) callback callback := by
  rintro s t ⟨hdevices, hrecords⟩
  rw [hdevices]
  cases callback s.1 with
  | none => exact Option.Rel.none
  | some x => exact Option.Rel.some ⟨rfl, rfl, rfl, hrecords⟩

/-- Nothing that is returned depends on the list. -/
theorem logged_alike (env : Env ω ι) (s₀ : ι) : env.Alike (Logs env s₀) env.logged where
  libc := rfl
  start _ := Logs.callback _
  readRegister _ _ := Logs.callback _
  writeRegister _ _ _ := Logs.callback _
  onInput d := by
    rw [Env.logged]
    cases (env.device d).onInput with
    | none => exact Option.Rel.none
    | some onInput => exact Option.Rel.some fun _ => Logs.callback _
  onTick _ := rfl
  getAddresses _ := rfl
  getAddressMethod _ := rfl
  getChar _ _ h := ⟨h.2.getChar.1, h.2.getChar.2.1, h.1, h.2.getChar.2.2⟩
  writeChar output _ _ _ h := ⟨h.1, h.2.writeChar output⟩
  ioStart _ _ h := ⟨h.2.ioStart.1, h.1, h.2.ioStart.2⟩
  ioEnd _ _ h := ⟨h.2.ioEnd.1, h.1, h.2.ioEnd.2⟩

/-- The calls that were made between two states of a logged terminal. -/
def Calls (calls : List IoCall) (s s' : ι × List (IoEvent ι)) : Prop :=
  s'.2.map IoEvent.call = s.2.map IoEvent.call ++ calls

theorem Calls.nil (s : ι × List (IoEvent ι)) : Calls [] s s := (List.append_nil _).symm

theorem Calls.append {calls calls' : List IoCall} {s s₁ s' : ι × List (IoEvent ι)}
    (h : Calls calls s s₁) (h' : Calls calls' s₁ s') : Calls (calls ++ calls') s s' := by
  rw [Calls, h', h, List.append_assoc]

/-! ### The calls of a command -/

/-- Calls of `write_char`. -/
def OnlyPrints (calls : List IoCall) : Prop :=
  ∃ output : List Byte, calls = output.map IoCall.writeChar

theorem prints_calls {io : DeviceIo ι} {s s' : ι × List (IoEvent ι)}
    (h : Prints io.logged s s') : ∃ calls, OnlyPrints calls ∧ Calls calls s s' := by
  obtain ⟨output, rfl⟩ := h
  refine ⟨_, ⟨output, rfl⟩, ?_⟩
  induction output generalizing s with
  | nil => exact Calls.nil s
  | cons c output ih =>
    have hfirst : Calls [IoCall.writeChar c] s (io.logged.writeChar c s) := by
      simp [Calls, DeviceIo.logged]
    exact hfirst.append ih

/-- The calls of `rounds` rounds of the loop of `simulator_run_until_end` and a last tick: a round
prints during its tick, reads, and prints again. -/
inductive Polls : ℕ → List IoCall → Prop
  | last {calls} (h : OnlyPrints calls) : Polls 0 calls
  | round {rounds ticked after calls} (hticked : OnlyPrints ticked) (hafter : OnlyPrints after)
      (h : Polls rounds calls) : Polls (rounds + 1) (ticked ++ .getChar :: (after ++ calls))

/-- A terminal that does not start is left alone; one that starts is ended, once and last. -/
def Session (Body : List IoCall → Prop) (out : Option ℤ) (calls : List IoCall) : Prop :=
  (∃ status < 0, calls = [.start status] ∧ out = some (-1)) ∨
  ∃ status ≥ 0, ∃ body status', Body body ∧ calls = .start status :: (body ++ [.stop status']) ∧
    (out = some (-1) ↔ status' < 0)

/-- The rounds that the loop of `simulator_run_until_end` makes: in the tick after them it stops. -/
def RoundsMade (env : Env ω ι) (sim : Simulator ω ι) (rounds : ℕ) : Prop :=
  ∃ sim₁ sim₂, runLoop env rounds sim = some (true, sim₁) ∧ tick env sim₁ = some (false, sim₂)

/-- The calls of a command with the status it returns. A run reads once in each round it makes. -/
def Command.Conversation (env : Env ω ι) (sim : Simulator ω ι) :
    Command → Option ℤ → List IoCall → Prop
  | .step _ => Session OnlyPrints
  | .runUntilEnd _ => Session fun body =>
    ∃ rounds, RoundsMade env (startIo env sim).2 rounds ∧ Polls rounds body
  | _ => fun _ calls => OnlyPrints calls

section Conversations

variable {env : Env ω ι} {sim sim' : Simulator ω (ι × List (IoEvent ι))}

theorem runLoop_calls {n : ℕ} (h : runLoop env.logged n sim = some (false, sim')) :
    ∃ rounds calls, RoundsMade env.logged sim rounds ∧ Polls rounds calls ∧
      Calls calls sim.machine.deviceIo sim'.machine.deviceIo := by
  induction n generalizing sim with
  | zero => cases h
  | succ n ih =>
    obtain ⟨⟨running, sim₁⟩, htick, h⟩ := Option.bind_eq_some_iff.mp h
    obtain ⟨ticked, hticked, hcalls⟩ := prints_calls (tick_prints htick)
    cases running with
    | false =>
      obtain ⟨-, rfl⟩ := Prod.mk.inj (Option.some.inj h)
      exact ⟨0, ticked, ⟨sim, sim₁, rfl, htick⟩, .last hticked, hcalls⟩
    | true =>
      obtain ⟨sim₂, hbody, h⟩ := Option.bind_eq_some_iff.mp h
      obtain ⟨after, hafter, hcalls₁⟩ := prints_calls (loopBody_prints hbody)
      obtain ⟨rounds, calls, ⟨sim₃, sim₄, hrounds, hlast⟩, hpolls, hcalls₂⟩ := ih h
      have hmade : runLoop env.logged (rounds + 1) sim = some (true, sim₃) := by
        rw [runLoop, htick]
        show (loopBody env.logged sim₁).bind (runLoop env.logged rounds) = _
        rw [hbody]
        exact hrounds
      have hread : Calls [.getChar] sim₁.machine.deviceIo
          (env.deviceIo.logged.getChar sim₁.machine.deviceIo).2.2 := by
        simp [Calls, DeviceIo.logged]
      exact ⟨rounds + 1, _, ⟨sim₃, sim₄, hmade, hlast⟩, .round hticked hafter hpolls,
        hcalls.append (hread.append (hcalls₁.append hcalls₂))⟩

theorem stepLoop_prints {env : Env ω ι} {sim sim' : Simulator ω ι} {n : ℕ}
    {status tickStatus : Option ℤ} (h : stepLoop env n status sim = some (tickStatus, sim')) :
    Prints env.deviceIo sim.machine.deviceIo sim'.machine.deviceIo ∧
      (tickStatus = some (-1) → status = some (-1)) := by
  induction n generalizing sim status with
  | zero =>
    obtain ⟨rfl, rfl⟩ := Prod.mk.inj (Option.some.inj h)
    exact ⟨Prints.refl _, id⟩
  | succ n ih =>
    obtain ⟨⟨running, sim₁⟩, htick, h⟩ := Option.bind_eq_some_iff.mp h
    cases running with
    | false =>
      obtain ⟨rfl, rfl⟩ := Prod.mk.inj (Option.some.inj h)
      exact ⟨tick_prints htick, fun h => absurd h (by decide)⟩
    | true =>
      obtain ⟨hprints, hstatus⟩ := ih h
      exact ⟨(tick_prints htick).trans hprints, fun h => absurd (hstatus h) (by decide)⟩

/-- The first call of `start`. -/
theorem startIo_calls (sim : Simulator ω (ι × List (IoEvent ι))) :
    Calls [.start (startIo env.logged sim).1] sim.machine.deviceIo
      (startIo env.logged sim).2.machine.deviceIo := by
  simp [Calls, startIo, Env.logged, DeviceIo.logged]

/-- The last call of `end`. -/
theorem endIo_calls (sim : Simulator ω (ι × List (IoEvent ι))) :
    Calls [.stop (endIo env.logged sim).1] sim.machine.deviceIo
      (endIo env.logged sim).2.machine.deviceIo := by
  simp [Calls, endIo, Env.logged, DeviceIo.logged]

theorem simulatorStep_conversation {amt : ℤ} {out : Option ℤ}
    (h : simulatorStep env.logged amt sim = some (out, sim')) :
    ∃ calls, Session OnlyPrints out calls ∧
      Calls calls sim.machine.deviceIo sim'.machine.deviceIo := by
  have hstart : Calls [.start (startIo env.logged sim).1] sim.machine.deviceIo _ :=
    startIo_calls sim
  simp only [simulatorStep] at h
  by_cases hfail : (startIo env.logged sim).1 < 0
  · rw [if_pos hfail] at h
    obtain ⟨rfl, rfl⟩ := Prod.mk.inj (Option.some.inj h)
    exact ⟨_, Or.inl ⟨_, hfail, rfl, rfl⟩, hstart⟩
  · rw [if_neg hfail] at h
    obtain ⟨⟨tickStatus, sim₁⟩, hloop, h⟩ := Option.bind_eq_some_iff.mp h
    obtain ⟨rfl, rfl⟩ := Prod.mk.inj (Option.some.inj h)
    obtain ⟨hprints, hstatus⟩ := stepLoop_prints hloop
    obtain ⟨body, hbody, hcalls⟩ := prints_calls hprints
    refine ⟨_, Or.inr ⟨_, not_lt.mp hfail, body, _, hbody, rfl, ?_⟩,
      hstart.append (hcalls.append (endIo_calls sim₁))⟩
    dsimp only
    split_ifs with hend
    · exact iff_of_true rfl hend
    · exact iff_of_false (fun h => by cases hstatus h) hend

theorem simulatorRunUntilEnd_conversation {n : ℕ} {status : ℤ}
    (h : simulatorRunUntilEnd env.logged n sim = some (status, sim')) :
    ∃ calls, Session (fun body => ∃ rounds,
        RoundsMade env.logged (startIo env.logged sim).2 rounds ∧ Polls rounds body)
        (some status) calls ∧
      Calls calls sim.machine.deviceIo sim'.machine.deviceIo := by
  have hstart : Calls [.start (startIo env.logged sim).1] sim.machine.deviceIo _ :=
    startIo_calls sim
  simp only [simulatorRunUntilEnd] at h
  by_cases hfail : (startIo env.logged sim).1 < 0
  · rw [if_pos hfail] at h
    obtain ⟨rfl, rfl⟩ := Prod.mk.inj (Option.some.inj h)
    exact ⟨_, Or.inl ⟨_, hfail, rfl, rfl⟩, hstart⟩
  · rw [if_neg hfail] at h
    obtain ⟨⟨running, sim₁⟩, hloop, h⟩ := Option.bind_eq_some_iff.mp h
    obtain ⟨_, hguard, h⟩ := Option.bind_eq_some_iff.mp h
    obtain ⟨rfl, rfl⟩ := Prod.mk.inj (Option.some.inj h)
    cases running with
    | true => cases hguard
    | false =>
      obtain ⟨rounds, body, hmade, hpolls, hcalls⟩ := runLoop_calls hloop
      refine ⟨_, Or.inr ⟨_, not_lt.mp hfail, body, _, ⟨rounds, hmade, hpolls⟩, rfl, ?_⟩,
        hstart.append (hcalls.append (endIo_calls sim₁))⟩
      dsimp only
      split_ifs with hend
      · exact iff_of_true rfl hend
      · exact iff_of_false (by decide) hend

/-- **One command.** -/
theorem runCommand_conversation {command : Command} {out : Option ℤ}
    (h : runCommand env.logged command sim = some (out, sim')) :
    ∃ calls, command.Conversation env.logged sim out calls ∧
      Calls calls sim.machine.deviceIo sim'.machine.deviceIo := by
  cases command with
  | step amt => exact simulatorStep_conversation h
  | runUntilEnd n =>
    obtain ⟨⟨status, sim₁⟩, hrun, h⟩ := Option.map_eq_some_iff.mp h
    obtain ⟨rfl, rfl⟩ := Prod.mk.inj h
    exact simulatorRunUntilEnd_conversation hrun
  | attachDevice _ | writeAddress _ _ | writeRegister _ _ | loadProgram _ _
    | updateDevicesInput _ => exact prints_calls (runCommand_prints id h)

end Conversations

/-! ### Any commands -/

/-- The calls of some commands, one after the other. -/
inductive Conversations (env : Env ω ι) :
    List Command → Simulator ω ι → List (Option ℤ) → List IoCall → Prop
  | nil (sim) : Conversations env [] sim [] []
  | cons {command commands sim sim₁ out outs calls rest}
      (hrun : runCommand env command sim = some (out, sim₁))
      (h : command.Conversation env sim out calls)
      (hrest : Conversations env commands sim₁ outs rest) :
      Conversations env (command :: commands) sim (out :: outs) (calls ++ rest)

section Alike

variable {κ : Type} {R : List Byte → ω × ι → ω × κ → Prop} {env : Env ω ι} {env' : Env ω κ}
  {sim sim₁ : Simulator ω ι} {sim' : Simulator ω κ}

/-- Rounds are made alike. -/
theorem RoundsMade.of_alike (halike : env.Alike R env') (hsim : SimAlike R sim sim') {rounds : ℕ}
    (h : RoundsMade env' sim' rounds) : RoundsMade env sim rounds := by
  obtain ⟨s₁, s₂, hrounds, hlast⟩ := h
  have hloop := runLoop_alike halike rounds hsim
  rw [hrounds] at hloop
  obtain ⟨sim₁, hloop, hsim₁⟩ := agree_eq_some hloop
  have htick := tick_alike halike hsim₁
  rw [hlast] at htick
  obtain ⟨sim₂, htick, -⟩ := agree_eq_some htick
  exact ⟨sim₁, sim₂, hloop, htick⟩

theorem Command.Conversation.of_alike (halike : env.Alike R env') (hsim : SimAlike R sim sim')
    {command : Command} {out : Option ℤ} {calls : List IoCall}
    (h : command.Conversation env' sim' out calls) : command.Conversation env sim out calls := by
  cases command with
  | runUntilEnd n =>
    refine Or.imp_right ?_ h
    rintro ⟨status, hstatus, body, status', ⟨rounds, hmade, hpolls⟩, hcalls⟩
    exact ⟨status, hstatus, body, status',
      ⟨rounds, hmade.of_alike halike (startIo_alike halike hsim).2, hpolls⟩, hcalls⟩
  | _ => exact h

end Alike

variable {env : Env ω ι} {commands : List Command} {outs : List (Option ℤ)}
  {sim sim' : Simulator ω ι}

/-- **Writing the calls down changes nothing.** -/
theorem exists_log (h : run (runCommand env) commands sim = some (outs, sim')) :
    ∃ log, run (runCommand env.logged) commands (sim.withIo (sim.machine.deviceIo, [])) =
        some (outs, sim'.withIo (sim'.machine.deviceIo, log)) ∧
      Genuine env.deviceIo sim.machine.deviceIo log sim'.machine.deviceIo := by
  have hstart : SimAlike (Logs env sim.machine.deviceIo) sim
      (sim.withIo (sim.machine.deviceIo, [])) := ⟨(_, _, []), ⟨rfl, rfl, rfl⟩, rfl⟩
  have halike := runCommands_alike (logged_alike env sim.machine.deviceIo) commands hstart
  rw [h] at halike
  obtain ⟨simLogged, hlogged, ⟨devices, deviceIo, log⟩, ⟨hdevices, rfl, hgenuine⟩, rfl⟩ :=
    agree_some_left halike
  obtain rfl : devices = sim'.machine.devices := hdevices
  exact ⟨log, hlogged, hgenuine⟩

/-- The calls that are written down are a conversation for each command. -/
theorem runCommands_conversations {s₀ : ι}
    {simLogged simLogged' : Simulator ω (ι × List (IoEvent ι))}
    (hsim : SimAlike (Logs env s₀) sim simLogged)
    (h : run (runCommand env.logged) commands simLogged = some (outs, simLogged')) :
    ∃ calls, Conversations env commands sim outs calls ∧
      Calls calls simLogged.machine.deviceIo simLogged'.machine.deviceIo := by
  induction commands generalizing sim simLogged outs with
  | nil =>
    obtain ⟨rfl, rfl⟩ := Prod.mk.inj (Option.some.inj h)
    exact ⟨[], .nil sim, Calls.nil _⟩
  | cons command commands ih =>
    obtain ⟨out, simLogged₁, rest, hcommand, hrest, rfl⟩ := run_cons_eq_some h
    have halike := runCommand_alike (logged_alike env s₀) command hsim
    rw [hcommand] at halike
    obtain ⟨sim₁, hplain, hsim₁⟩ := agree_eq_some halike
    obtain ⟨calls, hconversation, hcalls⟩ := runCommand_conversation hcommand
    obtain ⟨calls', hconversations, hcalls'⟩ := ih hsim₁ hrest
    exact ⟨calls ++ calls',
      .cons hplain (hconversation.of_alike (logged_alike env s₀) hsim) hconversations,
      hcalls.append hcalls'⟩

/-- The calls in the list are a conversation for each command. -/
theorem log_conversations {log : List (IoEvent ι)}
    (h : run (runCommand env.logged) commands (sim.withIo (sim.machine.deviceIo, [])) =
      some (outs, sim'.withIo (sim'.machine.deviceIo, log))) :
    Conversations env commands sim outs (log.map IoEvent.call) := by
  have hstart : SimAlike (Logs env sim.machine.deviceIo) sim
      (sim.withIo (sim.machine.deviceIo, [])) := ⟨(_, _, []), ⟨rfl, rfl, rfl⟩, rfl⟩
  obtain ⟨calls, hconversations, hcalls⟩ := runCommands_conversations hstart h
  have hlog : log.map IoEvent.call = calls := hcalls
  exact hlog ▸ hconversations

/-- **The protocol of the terminal.** Whatever the devices and the terminal do, writing the calls
down changes nothing, and the calls that any commands make are a conversation for each command, in
the order of the commands. Stepping and running call `start` first: if that fails it is the only
call, and the command returns -1; otherwise `end` is called once and last, and the command returns
-1 exactly if that fails. In between there is output only, but for one read in each of the rounds
that the loop of the run command makes; and all other commands make no call but for output. -/
theorem simulator_conversations (h : run (runCommand env) commands sim = some (outs, sim')) :
    ∃ log, run (runCommand env.logged) commands (sim.withIo (sim.machine.deviceIo, [])) =
        some (outs, sim'.withIo (sim'.machine.deviceIo, log)) ∧
      Genuine env.deviceIo sim.machine.deviceIo log sim'.machine.deviceIo ∧
      Conversations env commands sim outs (log.map IoEvent.call) := by
  obtain ⟨log, hlogged, hgenuine⟩ := exists_log h
  exact ⟨log, hlogged, hgenuine, log_conversations hlogged⟩

/-- A program that turns the clock off with its second instruction. -/
def twoTicks : List Command :=
  [.loadProgram [0x3000, 0x5020, 0xB001, 0, 0xFFFE] 0, .runUntilEnd 2]

/-- The run makes one round, and reads once. -/
theorem simulator_conversations_twoTicks : ∃ sim sim' : Simulator Unit Unit, ∃ log,
    simulatorNew bareEnv () () = some sim ∧
    run (runCommand bareEnv) twoTicks sim = some ([some 0, some 0], sim') ∧
    Genuine silentIo () log () ∧
    Conversations bareEnv twoTicks sim [some 0, some 0] (log.map IoEvent.call) ∧
    log.map IoEvent.call = [.start 0, .getChar, .stop 0] := by
  obtain ⟨sim, hnew⟩ : ∃ sim, simulatorNew bareEnv () () = some sim := ⟨_, rfl⟩
  have hcalls : (run (runCommand bareEnv.logged) twoTicks (sim.withIo ((), []))).map
      (fun x => x.2.machine.deviceIo.2.map IoEvent.call) = some [.start 0, .getChar, .stop 0] := by
    obtain rfl := Option.some.inj hnew
    decide +kernel
  obtain ⟨⟨outs, sim'⟩, hrun, houts⟩ : ∃ x,
      run (runCommand bareEnv) twoTicks sim = some x ∧ x.1 = [some 0, some 0] := by
    obtain rfl := Option.some.inj hnew
    exact ⟨_, rfl, by decide +kernel⟩
  dsimp only at houts
  subst houts
  obtain ⟨log, hlogged, hgenuine, hconversations⟩ := simulator_conversations hrun
  have hlog := hcalls
  rw [show sim.withIo ((), []) = sim.withIo (sim.machine.deviceIo, []) from rfl, hlogged] at hlog
  exact ⟨sim, sim', log, hnew, hrun, hgenuine, hconversations, Option.some.inj hlog⟩

end Lc3Simulator
