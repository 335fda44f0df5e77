import Lc3Simulator.TerminalCalls
import Lc3Simulator.TerminalSettings
import Lc3Simulator.UiLoop
import Mathlib.Logic.Function.Iterate

/-!
# The terminal is given back

A user of the simulator has the terminal at every prompt, and the machine has it while a program
runs. `start` takes it and `end` gives it back, and both may fail half way. A failure ends the
simulator, and the handlers that `init_terminal` has registered run then.

So over a whole session the terminal is as it was found at every prompt, up to `O_NONBLOCK`, which
`end` turns off if it was on; and on exit its settings are those it was found with, even if the last
`end` failed. What stays behind then is `O_NONBLOCK` on both descriptors.

## Main definitions

* `AtPrompt`, `Taken` — the terminal is as it was found, or it is taken
* `FewFaults` — no call of `start` or `end` meets two faults

## Main results

* `AtPrompt.command` — one command
* `AtPrompt.commands` — some commands
* `terminal_given_back` — any session, and the exit
-/

namespace Lc3Simulator

open Transition

variable {τ κ ω : Type}

section States

variable {k : Kernel τ κ} (spec : KernelSpec k) (data : DeviceIoImplData) (found : Settings τ)

/-- The terminal is as it was found, but that `O_NONBLOCK` may be off. -/
structure AtPrompt (s : Terminal τ κ) : Prop where
  settings : spec.settings s.kernel = found ∨ spec.settings s.kernel = blocking spec data found
  saved : s.handlers = 0 ∨ s.savedTermios = found.termios
  no_tty : k.isatty = false → s.handlers = 0

/-- The terminal is taken, and its settings are remembered. -/
structure Taken (s : Terminal τ κ) : Prop where
  settings : spec.settings s.kernel = running spec data found
  saved : k.isatty = true → s.savedTermios = found.termios ∧ 0 < s.handlers
  no_tty : k.isatty = false → s.handlers = 0

/-- The same settings inside and outside of the kernel. -/
structure SameSettings (s s' : Terminal τ κ) : Prop where
  settings : spec.settings s'.kernel = spec.settings s.kernel
  saved : s'.savedTermios = s.savedTermios
  handlers : s'.handlers = s.handlers

variable {spec data found} {s s' : Terminal τ κ}

theorem SameSettings.refl (s : Terminal τ κ) : SameSettings spec s s := ⟨rfl, rfl, rfl⟩

theorem SameSettings.trans {s₁ : Terminal τ κ} (h : SameSettings spec s s₁)
    (h' : SameSettings spec s₁ s') : SameSettings spec s s' :=
  ⟨h'.settings.trans h.settings, h'.saved.trans h.saved, h'.handlers.trans h.handlers⟩

theorem AtPrompt.of_same (h : AtPrompt spec data found s) (hsame : SameSettings spec s s') :
    AtPrompt spec data found s' := by
  refine ⟨?_, ?_, ?_⟩
  · rw [hsame.settings]
    exact h.settings
  · rw [hsame.handlers, hsame.saved]
    exact h.saved
  · rw [hsame.handlers]
    exact h.no_tty

theorem Taken.of_same (h : Taken spec data found s) (hsame : SameSettings spec s s') :
    Taken spec data found s' := by
  refine ⟨?_, ?_, ?_⟩
  · rw [hsame.settings]
    exact h.settings
  · rw [hsame.handlers, hsame.saved]
    exact h.saved
  · rw [hsame.handlers]
    exact h.no_tty

theorem AtPrompt.termios (h : AtPrompt spec data found s) :
    (spec.settings s.kernel).termios = found.termios := by
  rcases h.settings with heq | heq <;> rw [heq]
  rfl

/-- What the running machine sees does not depend on `O_NONBLOCK` before. -/
theorem AtPrompt.running_eq (h : AtPrompt spec data found s) :
    running spec data (spec.settings s.kernel) = running spec data found := by
  rcases h.settings with heq | heq
  · rw [heq]
  · rw [heq, running, running, nonblocking_blocking]
    rfl

/-- **Taking the terminal.** -/
theorem AtPrompt.start {status : ℤ} (h : AtPrompt spec data found s)
    (hstart : ioImplStart k data s = (status, s')) (hstatus : ¬ status < 0) :
    Taken spec data found s' := by
  have hdone := ioImplStart_done spec data hstart hstatus
  refine ⟨hdone.settings.trans h.running_eq, fun htty => ?_, fun htty => ?_⟩
  · obtain ⟨hsaved, hhandlers⟩ := hdone.saved htty
    exact ⟨hsaved.trans h.termios, hhandlers⟩
  · rw [hdone.unsaved htty]
    exact h.no_tty htty

/-- A start that fails with one fault. -/
theorem AtPrompt.start_failed {status : ℤ} (h : AtPrompt spec data found s)
    (hstart : ioImplStart k data s = (status, s')) (hstatus : status < 0)
    (hfew : spec.faults s'.kernel ≤ spec.faults s.kernel + 1) : AtPrompt spec data found s' := by
  have hfailed := ioImplStart_failed spec data hstart hstatus
  have hback := hfailed.back.resolve_right (Nat.not_lt.mpr hfew)
  refine ⟨by rw [hback]; exact h.settings, ?_, fun htty => ?_⟩
  · rw [hfailed.handlers]
    rcases hfailed.saved with heq | heq
    · rw [heq]
      exact h.saved
    · exact Or.inr (heq.trans h.termios)
  · rw [hfailed.handlers]
    exact h.no_tty htty

/-- **Giving the terminal back.** -/
theorem Taken.stop {status : ℤ} (h : Taken spec data found s)
    (hend : ioImplEnd k data s = (status, s')) (hstatus : ¬ status < 0)
    (hfew : spec.faults s'.kernel ≤ spec.faults s.kernel) : AtPrompt spec data found s' := by
  have hdone := ioImplEnd_done spec data hend hstatus
  refine ⟨Or.inr (Settings.ext ?_ ?_), ?_, fun htty => ?_⟩
  · rw [hdone.flags, h.settings]
    have hflags := congrArg Settings.flags (blocking_nonblocking spec data found)
    exact hflags
  · rw [hdone.termios (le_antisymm hfew hdone.faults)]
    cases htty : k.isatty with
    | true =>
      rw [if_pos rfl]
      exact (h.saved htty).1
    | false =>
      rw [if_neg (by decide), h.settings, running, htty]
      rfl
  · cases htty : k.isatty with
    | true => exact Or.inr (hdone.saved.trans (h.saved htty).1)
    | false => exact Or.inl (hdone.handlers.trans (h.no_tty htty))
  · rw [hdone.handlers]
    exact h.no_tty htty

/-- An end that fails with one fault. -/
theorem Taken.stop_failed {status : ℤ} (h : Taken spec data found s)
    (hend : ioImplEnd k data s = (status, s')) (hstatus : status < 0)
    (hfew : spec.faults s'.kernel ≤ spec.faults s.kernel + 1) : Taken spec data found s' := by
  have hfailed := ioImplEnd_failed spec data hend hstatus
  exact h.of_same ⟨hfailed.back.resolve_right (Nat.not_lt.mpr hfew), hfailed.saved,
    hfailed.handlers⟩

end States

/-! ### Reading and writing -/

section Transfers

variable {k : Kernel τ κ} {spec : KernelSpec k} {data : DeviceIoImplData} {c : Byte}
  {s s' : Terminal τ κ}

theorem ioImplWriteChar_kept (spec : KernelSpec k) {output : Byte} {n : ℕ} {t t' : κ} {status : ℤ}
    (h : ioImplWriteChar k data output n t = some (status, t')) :
    spec.settings t' = spec.settings t := by
  induction n generalizing t with
  | zero => cases h
  | succ n ih =>
    rw [ioImplWriteChar] at h
    have hkept := (spec.write_kept data.outfd output t).1
    rcases hwrite : k.write data.outfd output t with ⟨result, t₁⟩
    rw [hwrite] at hkept h
    cases result with
    | one =>
      obtain ⟨-, rfl⟩ := Prod.mk.inj (Option.some.inj h)
      exact hkept
    | zero => exact (ih h).trans hkept
    | failed errno =>
      dsimp only at h
      split at h
      · exact (ih h).trans hkept
      · obtain ⟨-, rfl⟩ := Prod.mk.inj (Option.some.inj h)
        exact hkept

/-- A call that transfers a character. -/
def IoCall.Transfers : IoCall → Prop
  | .getChar | .writeChar _ => True
  | .start _ | .stop _ => False

theorem Genuine.of_append {ι : Type} {io : DeviceIo ι} {log log' : List (IoEvent ι)} {s s' : ι}
    (h : Genuine io s (log ++ log') s') : ∃ s₁, Genuine io s log s₁ ∧ Genuine io s₁ log' s' := by
  induction log generalizing s with
  | nil => exact ⟨s, rfl, h⟩
  | cons e log ih =>
    obtain ⟨s₁, h₁, h₂⟩ := ih h.2.2
    exact ⟨s₁, ⟨h.1, h.2.1, h₁⟩, h₂⟩

/-- Transferring characters changes no setting. -/
theorem genuine_same (spec : KernelSpec k) {log : List (IoEvent (Terminal τ κ))}
    (h : Genuine (createDeviceIoImpl k data c) s log s')
    (htransfers : ∀ call ∈ log.map IoEvent.call, call.Transfers) : SameSettings spec s s' := by
  induction log generalizing s with
  | nil =>
    obtain rfl : s' = s := h
    exact SameSettings.refl _
  | cons e log ih =>
    obtain ⟨rfl, hmade, hrest⟩ := h
    rw [List.map_cons, List.forall_mem_cons] at htransfers
    refine SameSettings.trans ?_ (ih hrest htransfers.2)
    rcases e with ⟨call, before, after⟩
    cases call with
    | getChar =>
      obtain rfl : after = { before with kernel := (k.read data.infd before.kernel).2 } := hmade
      exact ⟨(spec.read_kept data.infd before.kernel).1, rfl, rfl⟩
    | writeChar output =>
      obtain rfl : after = (implDescriptors k data).writeChar output before := hmade
      dsimp only [implDescriptors]
      split
      · exact ⟨ioImplWriteChar_kept spec ‹_›, rfl, rfl⟩
      · exact SameSettings.refl _
    | start status => exact htransfers.1.elim
    | stop status => exact htransfers.1.elim

theorem OnlyPrints.transfers {calls : List IoCall} (h : OnlyPrints calls) :
    ∀ call ∈ calls, call.Transfers := by
  obtain ⟨output, rfl⟩ := h
  intro call hcall
  obtain ⟨_, -, rfl⟩ := List.mem_map.mp hcall
  trivial

theorem Polls.transfers {rounds : ℕ} {calls : List IoCall} (h : Polls rounds calls) :
    ∀ call ∈ calls, call.Transfers := by
  induction h with
  | last h => exact h.transfers
  | round hticked hafter _ ih =>
    intro call hcall
    rcases List.mem_append.mp hcall with hcall | hcall
    · exact hticked.transfers call hcall
    · rcases List.mem_cons.mp hcall with rfl | hcall
      · trivial
      · rcases List.mem_append.mp hcall with hcall | hcall
        · exact hafter.transfers call hcall
        · exact ih call hcall

end Transfers

/-! ### Commands -/

section Commands

variable {k : Kernel τ κ} (spec : KernelSpec k) {data : DeviceIoImplData} {c : Byte}
  {found : Settings τ} {s s' : Terminal τ κ}

/-- A call of `start`, or of an `end` that fails, meets at most one fault, and an `end` that
succeeds meets none. -/
def FewFaults (log : List (IoEvent (Terminal τ κ))) : Prop :=
  ∀ e ∈ log, match e.call with
    | .start _ => spec.faults e.after.kernel ≤ spec.faults e.before.kernel + 1
    | .stop status => spec.faults e.after.kernel ≤
        spec.faults e.before.kernel + if status < 0 then 1 else 0
    | _ => True

variable {spec}

/-- **A session.** -/
theorem AtPrompt.session {Body : List IoCall → Prop} {out : Option ℤ}
    {log : List (IoEvent (Terminal τ κ))}
    (htransfers : ∀ body, Body body → ∀ call ∈ body, call.Transfers)
    (h : AtPrompt spec data found s) (hlog : Genuine (createDeviceIoImpl k data c) s log s')
    (hsession : Session Body out (log.map IoEvent.call)) (hfew : FewFaults spec log) :
    AtPrompt spec data found s' ∨ (out = some (-1) ∧ Taken spec data found s') := by
  rcases hsession with ⟨status, hstatus, hcalls, -⟩ |
    ⟨status, hstatus, body, status', hbody, hcalls, hout⟩
  · obtain ⟨⟨_, before, after⟩, rfl, rfl⟩ := List.map_eq_singleton_iff.mp hcalls
    obtain ⟨rfl, hmade, rfl⟩ := hlog
    exact Or.inl (h.start_failed hmade.symm hstatus (hfew _ (List.mem_singleton_self _)))
  · obtain ⟨⟨_, before, after⟩, rest, rfl, rfl, hrest⟩ := List.map_eq_cons_iff.mp hcalls
    obtain ⟨inside, last, rfl, hinside, hlast⟩ := List.map_eq_append_iff.mp hrest
    obtain ⟨⟨_, before', after'⟩, rfl, rfl⟩ := List.map_eq_singleton_iff.mp hlast
    obtain ⟨rfl, hmade, hlog⟩ := hlog
    obtain ⟨s₁, hlogInside, rfl, hmade', rfl⟩ := hlog.of_append
    have htaken : Taken spec data found before' :=
      (h.start hmade.symm (not_lt.mpr hstatus)).of_same
        (genuine_same spec hlogInside (hinside ▸ htransfers body hbody))
    have hfew' := hfew ⟨.stop status', before', s'⟩ (by simp)
    dsimp only at hfew'
    by_cases hfail : status' < 0
    · rw [if_pos hfail] at hfew'
      exact Or.inr ⟨hout.mpr hfail, htaken.stop_failed hmade'.symm hfail hfew'⟩
    · rw [if_neg hfail] at hfew'
      exact Or.inl (htaken.stop hmade'.symm hfail hfew')

/-- **One command.** -/
theorem AtPrompt.command {env : Env ω (Terminal τ κ)} {sim : Simulator ω (Terminal τ κ)}
    {command : Command} {out : Option ℤ} {log : List (IoEvent (Terminal τ κ))}
    (h : AtPrompt spec data found s) (hlog : Genuine (createDeviceIoImpl k data c) s log s')
    (hcalls : command.Conversation env sim out (log.map IoEvent.call))
    (hfew : FewFaults spec log) :
    AtPrompt spec data found s' ∨
      (command.Runs ∧ out = some (-1) ∧ Taken spec data found s') := by
  cases command with
  | step amt =>
    have hafter := h.session (fun _ hbody => OnlyPrints.transfers hbody) hlog hcalls hfew
    exact hafter.imp id fun h => ⟨trivial, h⟩
  | runUntilEnd n =>
    have hafter := h.session (fun _ ⟨_, _, hbody⟩ => Polls.transfers hbody) hlog hcalls hfew
    exact hafter.imp id fun h => ⟨trivial, h⟩
  | attachDevice _ | writeAddress _ _ | writeRegister _ _ | loadProgram _ _
    | updateDevicesInput _ =>
    exact Or.inl (h.of_same (genuine_same spec hlog (OnlyPrints.transfers hcalls)))

/-- **Some commands**, of which only the last one may fail. -/
theorem AtPrompt.commands {env : Env ω (Terminal τ κ)} {sim : Simulator ω (Terminal τ κ)}
    {commands : List Command} {outs : List (Option ℤ)} {log : List (IoEvent (Terminal τ κ))}
    (h : AtPrompt spec data found s) (hlog : Genuine (createDeviceIoImpl k data c) s log s')
    (hcalls : Conversations env commands sim outs (log.map IoEvent.call))
    (hstops : StopsAtError commands outs) (hfew : FewFaults spec log) :
    AtPrompt spec data found s' ∨
      (outs.getLast? = some (some (-1)) ∧ Taken spec data found s') := by
  obtain ⟨calls, hcallsEq⟩ : ∃ calls, calls = log.map IoEvent.call := ⟨_, rfl⟩
  rw [← hcallsEq] at hcalls
  induction hcalls generalizing log s with
  | nil =>
    obtain rfl := List.map_eq_nil_iff.mp hcallsEq.symm
    obtain rfl : s' = s := hlog
    exact Or.inl h
  | @cons command commands sim sim₁ out outs calls rest hrun hcommand hrest ih =>
    obtain ⟨log₁, log₂, rfl, rfl, rfl⟩ := List.map_eq_append_iff.mp hcallsEq.symm
    obtain ⟨s₁, hlog₁, hlog₂⟩ := hlog.of_append
    have hfew₁ : FewFaults spec log₁ := fun e he => hfew e (List.mem_append_left _ he)
    have hfew₂ : FewFaults spec log₂ := fun e he => hfew e (List.mem_append_right _ he)
    rcases h.command hlog₁ hcommand hfew₁ with hprompt | ⟨hruns, hout, htaken⟩
    · rcases ih hprompt hlog₂ hstops.2 hfew₂ rfl with hafter | ⟨hlast, hafter⟩
      · exact Or.inl hafter
      · refine Or.inr ⟨?_, hafter⟩
        rw [List.getLast?_cons, hlast]
        rfl
    · obtain rfl := hstops.1 hruns hout
      obtain ⟨rfl, hnil⟩ : outs = [] ∧ log₂.map IoEvent.call = [] := by
        generalize log₂.map IoEvent.call = calls at hrest ⊢
        cases hrest
        exact ⟨rfl, rfl⟩
      obtain rfl := List.map_eq_nil_iff.mp hnil
      obtain rfl : s' = s₁ := hlog₂
      exact Or.inr ⟨by rw [hout]; rfl, htaken⟩

end Commands

/-! ### The exit -/

section Exit

variable {k : Kernel τ κ} (spec : KernelSpec k) {s : Terminal τ κ}

theorem exitHandlers_faults_le (n : ℕ) (s : Terminal τ κ) :
    ((spec.settings ((termiosAtexit k)^[n] s).kernel).flags = (spec.settings s.kernel).flags ∧
      spec.faults s.kernel ≤ spec.faults ((termiosAtexit k)^[n] s).kernel) := by
  induction n generalizing s with
  | zero => exact ⟨rfl, le_rfl⟩
  | succ n ih =>
    obtain ⟨hflags, hle⟩ := resetTerminal_flags spec s
    obtain ⟨hflags', hle'⟩ := ih (termiosAtexit k s)
    rw [Function.iterate_succ_apply]
    exact ⟨hflags'.trans hflags, hle.trans hle'⟩

/-- Saved settings that are in force stay in force, even when a handler fails. -/
theorem exitHandlers_same (n : ℕ) (h : (spec.settings s.kernel).termios = s.savedTermios) :
    (spec.settings ((termiosAtexit k)^[n] s).kernel).termios = s.savedTermios := by
  induction n generalizing s with
  | zero => exact h
  | succ n ih =>
    rw [Function.iterate_succ_apply]
    refine ih (s := termiosAtexit k s) ?_
    rcases hset : k.tcsetattr s.savedTermios s.kernel with ⟨_ | _, kernel⟩
    · rw [termiosAtexit, hset]
      exact (congrArg Settings.termios (spec.tcsetattr_false hset).1).trans h
    · obtain ⟨-, new, hmerged, hsettings, -⟩ := spec.tcsetattr_true hset
      rw [termiosAtexit, hset]
      show (spec.settings kernel).termios = s.savedTermios
      rw [hsettings]
      exact (h ▸ hmerged).eq_of_same

variable {data : DeviceIoImplData} {found : Settings τ}

theorem AtPrompt.exit (h : AtPrompt spec data found s) :
    (spec.settings (exitHandlers k s).kernel).termios = found.termios := by
  rw [exitHandlers]
  rcases h.saved with hnone | hsaved
  · rw [hnone]
    exact h.termios
  · rw [exitHandlers_same spec s.handlers (h.termios.trans hsaved.symm), hsaved]

theorem Taken.exit (h : Taken spec data found s)
    (hfaults : spec.faults (exitHandlers k s).kernel = spec.faults s.kernel) :
    (spec.settings (exitHandlers k s).kernel).termios = found.termios := by
  rw [exitHandlers] at hfaults ⊢
  cases htty : k.isatty with
  | false =>
    rw [h.no_tty htty]
    show (spec.settings s.kernel).termios = found.termios
    rw [h.settings, running, htty]
    rfl
  | true =>
    obtain ⟨hsaved, hpos⟩ := h.saved htty
    obtain ⟨n, hn⟩ := Nat.exists_eq_succ_of_ne_zero hpos.ne'
    rw [hn, Function.iterate_succ_apply] at hfaults ⊢
    have hle := (exitHandlers_faults_le spec n (termiosAtexit k s)).2
    have hback : (spec.settings (termiosAtexit k s).kernel).termios = s.savedTermios := by
      rcases resetTerminal_settings spec s htty with ⟨hback, -⟩ | hlt
      · exact congrArg Settings.termios hback
      · rw [resetTerminal] at hlt
        omega
    exact (exitHandlers_same spec n hback).trans hsaved

end Exit

/-! ### Any session -/

section Sessions

variable {k : Kernel τ κ} (spec : KernelSpec k) (data : DeviceIoImplData) (c : Byte)
  {env : Env ω (Terminal τ κ)}

/-- **The terminal is given back.** Any commands, of which only the last one reports an error,
leave the terminal as it was found, but that `O_NONBLOCK` may be off; unless the last one fails
while it gives the terminal back: then it is still taken. On exit its settings are those it was
found with in either case, and the flags stay. All this holds if every `start`, and every `end` that
reports an error, meets at most one fault, and the others none, nor the exit. -/
theorem terminal_given_back (hio : env.deviceIo = createDeviceIoImpl k data c)
    {commands : List Command} {outs : List (Option ℤ)} {sim sim' : Simulator ω (Terminal τ κ)}
    (hrun : run (runCommand env) commands sim = some (outs, sim'))
    (hnew : sim.machine.deviceIo.handlers = 0) (hstops : StopsAtError commands outs) :
    ∃ log, run (runCommand env.logged) commands (sim.withIo (sim.machine.deviceIo, [])) =
        some (outs, sim'.withIo (sim'.machine.deviceIo, log)) ∧
      (FewFaults spec log →
        let found := spec.settings sim.machine.deviceIo.kernel
        let s := sim'.machine.deviceIo
        let left := exitHandlers k s
        (spec.settings s.kernel = found ∨ spec.settings s.kernel = blocking spec data found ∨
          (outs.getLast? = some (some (-1)) ∧
            spec.settings s.kernel = running spec data found)) ∧
        (spec.faults left.kernel = spec.faults s.kernel →
          spec.settings left.kernel =
              { spec.settings s.kernel with termios := found.termios })) := by
  obtain ⟨log, hlogged, hgenuine⟩ := exists_log hrun
  have hcalls := log_conversations hlogged
  rw [hio] at hgenuine
  refine ⟨log, hlogged, fun hfew => ?_⟩
  have hprompt : AtPrompt spec data (spec.settings sim.machine.deviceIo.kernel)
      sim.machine.deviceIo := ⟨Or.inl rfl, Or.inl hnew, fun _ => hnew⟩
  have hflags := (exitHandlers_faults_le spec sim'.machine.deviceIo.handlers
    sim'.machine.deviceIo).1
  rcases hprompt.commands hgenuine hcalls hstops hfew with hafter | ⟨hlast, hafter⟩
  · refine ⟨?_, fun _ => Settings.ext hflags (hafter.exit spec)⟩
    exact hafter.settings.imp id Or.inl
  · exact ⟨Or.inr (Or.inr ⟨hlast, hafter.settings⟩),
      fun hfaults => Settings.ext hflags (hafter.exit spec hfaults)⟩

end Sessions

/-- A kernel that does all that it is asked, but for the eighth call that sets flags. -/
def faultyKernel : Kernel Unit (Settings Unit × ℕ) where
  platform := ⟨0x800, 0x8, 0x2, 6, 5, 32⟩
  isatty := true
  getfl fd s := (some (s.1.flags fd), s)
  setfl fd flags s :=
    if s.2 = 7 then (false, s.1, s.2 + 1)
    else (true, s.1.change (fun _ => flags) fd, s.2 + 1)
  tcgetattr s := (some s.1.termios, s)
  tcsetattr termios s := (true, { s.1 with termios }, s.2)
  read _ s := (.failed .eagain, s)
  write _ _ s := (.one, s)
  patience _ := 0

def faultySpec : KernelSpec faultyKernel where
  description fd := fd
  settings s := s.1
  faults s := if 7 < s.2 then 1 else 0
  getfl_some h := by
    obtain ⟨hflags, rfl⟩ := Prod.mk.inj h
    exact ⟨(Option.some.inj hflags).symm, rfl, le_rfl⟩
  getfl_none h := by cases h
  setfl_true {fd flags s s'} h _ := by
    change (if s.2 = 7 then _ else _) = _ at h
    split at h
    · cases h
    · obtain ⟨-, rfl⟩ := Prod.mk.inj h
      refine ⟨rfl, ?_⟩
      dsimp only
      split_ifs <;> omega
  setfl_false {fd flags s s'} h := by
    change (if s.2 = 7 then _ else _) = _ at h
    split at h
    · obtain ⟨-, rfl⟩ := Prod.mk.inj h
      refine ⟨rfl, ?_⟩
      dsimp only
      split_ifs <;> omega
    · cases h
  tcgetattr_some h := by
    obtain ⟨ht, rfl⟩ := Prod.mk.inj h
    exact ⟨(Option.some.inj ht).symm, rfl, le_rfl⟩
  tcgetattr_none h := by cases h
  tcsetattr_true {t _ _} h := by
    obtain ⟨-, rfl⟩ := Prod.mk.inj h
    exact ⟨rfl, t, ⟨fun _ => Or.inl rfl, fun _ => Or.inl rfl, Or.inl rfl⟩, rfl, le_rfl,
      Or.inl rfl⟩
  tcsetattr_false h := by cases h
  atexitMax_pos := by decide
  vmin_ne_vtime := by decide
  read_kept _ _ := ⟨rfl, le_rfl⟩
  write_kept _ _ _ := ⟨rfl, le_rfl⟩

/-- Nothing but memory, with the terminal of that kernel. -/
def faultyEnv : Env Unit (Terminal Unit (Settings Unit × ℕ)) :=
  ⟨SortSearch.bisecting _, fun _ => inertDevice, createDeviceIoImpl faultyKernel ⟨0, 1⟩ 0⟩

/-- A terminal that shows what is typed, a line at a time. -/
def cookedTerminal : Terminal Unit (Settings Unit × ℕ) :=
  ⟨(⟨fun _ => 2, ⟨0x8A3B, fun _ => 0, ()⟩⟩, 0), ⟨0, fun _ => 0, ()⟩, 0⟩

/-- Two steps, of which the second can not give the terminal back. -/
def faultyCommands : List Command := [.loadProgram [0x3000, 0x1021] 0, .step 1, .step 1]

/-- The calls of a log, each with the number of faults before and after it. -/
def faultsOf (log : List (IoEvent (Terminal Unit (Settings Unit × ℕ)))) : List (IoCall × ℕ × ℕ) :=
  log.map fun e =>
    (e.call, faultySpec.faults e.before.kernel, faultySpec.faults e.after.kernel)

theorem terminal_given_back_faulty :
    ∃ sim sim' : Simulator Unit (Terminal Unit (Settings Unit × ℕ)),
      simulatorNew faultyEnv () cookedTerminal = some sim ∧
      run (runCommand faultyEnv) faultyCommands sim =
        some ([some 0, some 1, some (-1)], sim') ∧
      sim'.machine.deviceIo.handlers = 2 ∧
      (exitHandlers faultyKernel sim'.machine.deviceIo).kernel.1.termios =
        cookedTerminal.kernel.1.termios := by
  obtain ⟨sim, hnew⟩ : ∃ sim, simulatorNew faultyEnv () cookedTerminal = some sim := ⟨_, rfl⟩
  obtain ⟨⟨outs, sim'⟩, hrun, houts, hhandlers⟩ : ∃ x,
      run (runCommand faultyEnv) faultyCommands sim = some x ∧
        x.1 = [some 0, some 1, some (-1)] ∧ x.2.machine.deviceIo.handlers = 2 := by
    obtain rfl := Option.some.inj hnew
    exact ⟨_, rfl, by decide +kernel, by decide +kernel⟩
  have hterminal : sim.machine.deviceIo = cookedTerminal := by
    obtain rfl := Option.some.inj hnew
    rfl
  dsimp only at houts hhandlers
  subst houts
  have hio : faultyEnv.deviceIo = createDeviceIoImpl faultyKernel ⟨0, 1⟩ 0 := rfl
  obtain ⟨log, hlogged, hback⟩ := terminal_given_back faultySpec ⟨0, 1⟩ 0 hio hrun
    (by rw [hterminal]; rfl) (by simp [StopsAtError, faultyCommands])
  have hlog : faultsOf log = [(.start 0, 0, 0), (.stop 0, 0, 0), (.start 0, 0, 0),
      (.stop (-1), 0, 1)] := by
    have hcalls : (run (runCommand faultyEnv.logged) faultyCommands
        (sim.withIo (sim.machine.deviceIo, []))).map (fun x => faultsOf x.2.machine.deviceIo.2) =
        some [(.start 0, 0, 0), (.stop 0, 0, 0), (.start 0, 0, 0), (.stop (-1), 0, 1)] := by
      obtain rfl := Option.some.inj hnew
      decide +kernel
    rw [hlogged] at hcalls
    exact Option.some.inj hcalls
  have hfew : FewFaults faultySpec log := by
    intro e he
    have hmem : _ ∈ faultsOf log := List.mem_map_of_mem he
    rw [hlog] at hmem
    simp only [List.mem_cons, Prod.mk.injEq, List.not_mem_nil, or_false] at hmem
    rcases hmem with ⟨hcall, hbefore, hafter⟩ | ⟨hcall, hbefore, hafter⟩ |
      ⟨hcall, hbefore, hafter⟩ | ⟨hcall, hbefore, hafter⟩ <;> simp [hcall, hbefore, hafter]
  have hexit := congrArg Settings.termios ((hback hfew).2 (by rw [exitHandlers, hhandlers]; rfl))
  refine ⟨sim, sim', hnew, hrun, hhandlers, hexit.trans ?_⟩
  rw [hterminal]
  rfl

end Lc3Simulator
