import Lc3Simulator.Terminal
import Mathlib.Order.Basic

/-!
# What start and end do to the settings

`start` changes up to three settings, one after the other, and takes back what it has done when a
step fails. The calls that take something back may fail as well, and nobody looks. So what can be
promised is what holds of one fault: a call that fails, or that does only a part of what it is
asked, as `tcsetattr` may. With at most one fault, a start or an end that fails changes nothing.

## Main definitions

* `Settings` — status flags and the settings of the terminal
* `KernelSpec` — what the system calls are documented to do
* `nonblocking`, `blocking` — the flags of both descriptors

## Main results

* `initTerminal_done`, `initTerminal_failed` — the two outcomes of `init_terminal`
* `ioImplStart_done`, `ioImplStart_failed`, `ioImplEnd_done`, `ioImplEnd_failed` — and of the two
  functions
-/

namespace Lc3Simulator

variable {τ κ : Type}

/-- The status flags of every open file description, and the settings of the terminal. -/
@[ext]
structure Settings (τ : Type) where
  flags : ℕ → BitVec 32
  termios : Termios τ

/-- The flags of one description are set to what `change` makes of them. -/
def Settings.change (v : Settings τ) (change : BitVec 32 → BitVec 32) (d : ℕ) : Settings τ :=
  { v with flags := Function.update v.flags d (change (v.flags d)) }

/-- A `tcsetattr` that succeeds has made some of the changes that it was asked for. -/
structure Merged (old asked new : Termios τ) : Prop where
  lflag : ∀ i, new.lflag.getLsbD i = asked.lflag.getLsbD i ∨
    new.lflag.getLsbD i = old.lflag.getLsbD i
  cc : ∀ i, new.cc i = asked.cc i ∨ new.cc i = old.cc i
  rest : new.rest = asked.rest ∨ new.rest = old.rest

/-- What the system calls are documented to do, while nobody else changes the settings. A fault is
a call that fails, or does a part only; a terminal that is none is not a fault. -/
structure KernelSpec (k : Kernel τ κ) where
  /-- The open file description that a descriptor refers to. -/
  description : Fd → ℕ
  settings : κ → Settings τ
  /-- The number of faults so far. -/
  faults : κ → ℕ
  getfl_some : ∀ {fd s flags s'}, k.getfl fd s = (some flags, s') →
    flags = (settings s).flags (description fd) ∧ settings s' = settings s ∧ faults s ≤ faults s'
  getfl_none : ∀ {fd s s'}, k.getfl fd s = (none, s') →
    settings s' = settings s ∧ faults s < faults s'
  /-- Flags that differ from the present ones in `O_NONBLOCK` only can be set. -/
  setfl_true : ∀ {fd flags s s'}, k.setfl fd flags s = (true, s') →
    flags ||| k.platform.oNonblock =
      (settings s).flags (description fd) ||| k.platform.oNonblock →
    settings s' = (settings s).change (fun _ => flags) (description fd) ∧ faults s ≤ faults s'
  setfl_false : ∀ {fd flags s s'}, k.setfl fd flags s = (false, s') →
    settings s' = settings s ∧ faults s < faults s'
  tcgetattr_some : ∀ {s t s'}, k.tcgetattr s = (some t, s') →
    t = (settings s).termios ∧ settings s' = settings s ∧ faults s ≤ faults s'
  tcgetattr_none : ∀ {s s'}, k.tcgetattr s = (none, s') →
    settings s' = settings s ∧ faults s < faults s'
  tcsetattr_true : ∀ {t s s'}, k.tcsetattr t s = (true, s') →
    k.isatty = true ∧ ∃ new, Merged (settings s).termios t new ∧
      settings s' = { settings s with termios := new } ∧ faults s ≤ faults s' ∧
      (new = t ∨ faults s < faults s')
  tcsetattr_false : ∀ {t s s'}, k.tcsetattr t s = (false, s') →
    settings s' = settings s ∧ faults s ≤ faults s' ∧ (k.isatty = true → faults s < faults s')
  atexitMax_pos : 0 < k.platform.atexitMax
  vmin_ne_vtime : k.platform.vmin ≠ k.platform.vtime
  read_kept : ∀ fd s, settings (k.read fd s).2 = settings s ∧ faults s ≤ faults (k.read fd s).2
  write_kept : ∀ fd c s, settings (k.write fd c s).2 = settings s ∧
    faults s ≤ faults (k.write fd c s).2

/-! ### Changing settings -/

section Settings

variable {v : Settings τ}

/-- Setting the flags back. -/
theorem Settings.change_back (v : Settings τ) (change : BitVec 32 → BitVec 32) (d : ℕ) :
    (v.change change d).change (fun _ => v.flags d) d = v := by
  simp [Settings.change]

@[simp] theorem Settings.change_termios (v : Settings τ) (change : BitVec 32 → BitVec 32) (d : ℕ) :
    (v.change change d).termios = v.termios := rfl

/-- Asking for what is there changes nothing. -/
theorem Merged.eq_of_same {t new : Termios τ} (h : Merged t t new) : new = t := by
  refine Termios.ext (BitVec.eq_of_getLsbD_eq fun i _ => ?_) (funext fun i => ?_) ?_
  · exact (h.lflag i).elim id id
  · exact (h.cc i).elim id id
  · exact h.rest.elim id id

/-- **The test of `init_terminal` is enough.** If the changes that it looks for were made, all were
made that it asked for. -/
theorem Merged.eq_raw {p : Platform} {t new : Termios τ} (h : Merged t (p.raw t) new)
    (hdone : p.refused new = false) : new = p.raw t := by
  obtain ⟨hlflag, hvmin, hvtime⟩ : new.lflag &&& (p.echo ||| p.icanon) = 0 ∧
      new.cc p.vmin = 1 ∧ new.cc p.vtime = 0 := by
    simpa only [Platform.refused, ne_eq, decide_eq_false_iff_not, not_or, not_not] using hdone
  refine Termios.ext (BitVec.eq_of_getLsbD_eq fun i hi => ?_) (funext fun i => ?_) ?_
  · rcases h.lflag i with hasked | hold
    · exact hasked
    · have hbit : (new.lflag &&& (p.echo ||| p.icanon)).getLsbD i = false := by simp [hlflag]
      rw [BitVec.getLsbD_and, hold] at hbit
      rw [hold, Platform.raw, BitVec.getLsbD_and, BitVec.getLsbD_not]
      cases hmask : (p.echo ||| p.icanon).getLsbD i with
      | false => simp [hi]
      | true =>
        rw [hmask, Bool.and_true] at hbit
        rw [hbit, Bool.false_and]
  · rcases h.cc i with hasked | hold
    · exact hasked
    · by_cases hitime : i = p.vtime
      · rw [hitime, hvtime, Platform.raw]
        simp
      · by_cases himin : i = p.vmin
        · rw [himin, hvmin, Platform.raw]
          have hne : p.vmin ≠ p.vtime := fun heq => hitime (himin.trans heq)
          simp [hne]
        · rw [hold, Platform.raw]
          simp [hitime, himin]
  · exact h.rest.elim id id

/-- What is asked for passes the test. -/
theorem Platform.raw_accepted {p : Platform} (h : p.vmin ≠ p.vtime) (t : Termios τ) :
    p.refused (p.raw t) = false := by
  have hlflag : (p.raw t).lflag &&& (p.echo ||| p.icanon) = 0 := by
    rw [Platform.raw, BitVec.and_assoc, BitVec.and_comm (~~~_), BitVec.and_not_self]
    exact BitVec.and_zero
  have hvmin : (p.raw t).cc p.vmin = 1 := by simp [Platform.raw, h]
  have hvtime : (p.raw t).cc p.vtime = 0 := by simp [Platform.raw]
  simp [Platform.refused, hlflag, hvmin, hvtime]

end Settings

/-! ### The status of a descriptor -/

section Status

variable {k : Kernel τ κ} (spec : KernelSpec k) {fd : Fd} {s s' : κ}
  {change : BitVec 32 → BitVec 32}

/-- Only `O_NONBLOCK` is changed. -/
def OnlyNonblock (k : Kernel τ κ) (change : BitVec 32 → BitVec 32) : Prop :=
  ∀ flags, change flags ||| k.platform.oNonblock = flags ||| k.platform.oNonblock

theorem onlyNonblock_on (k : Kernel τ κ) :
    OnlyNonblock k fun flags => flags ||| k.platform.oNonblock := by
  intro flags
  rw [BitVec.or_assoc, BitVec.or_self]

theorem onlyNonblock_off (k : Kernel τ κ) :
    OnlyNonblock k fun flags => flags &&& ~~~k.platform.oNonblock := by
  intro flags
  refine BitVec.eq_of_getLsbD_eq fun i hi => ?_
  simp only [BitVec.getLsbD_or, BitVec.getLsbD_and, BitVec.getLsbD_not, hi, decide_true,
    Bool.true_and]
  cases k.platform.oNonblock.getLsbD i <;> simp

theorem changeStatus_some {oldStatus : BitVec 32} (honly : OnlyNonblock k change)
    (h : changeStatus k change fd s = (some oldStatus, s')) :
    oldStatus = (spec.settings s).flags (spec.description fd) ∧
      spec.settings s' = (spec.settings s).change change (spec.description fd) ∧
      spec.faults s ≤ spec.faults s' := by
  rw [changeStatus] at h
  rcases hget : k.getfl fd s with ⟨_ | flags, s₁⟩
  · simp [hget] at h
  · simp only [hget] at h
    obtain ⟨rfl, hsame, hle⟩ := spec.getfl_some hget
    rcases hset : k.setfl fd (change ((spec.settings s).flags (spec.description fd))) s₁
      with ⟨_ | _, s₂⟩
    · simp [hset] at h
    · simp only [hset, Prod.mk.injEq, Option.some.injEq] at h
      obtain ⟨rfl, rfl⟩ := h
      obtain ⟨hchange, hle'⟩ := spec.setfl_true hset (by rw [hsame]; exact honly _)
      exact ⟨rfl, by rw [hchange, hsame]; rfl, hle.trans hle'⟩

theorem changeStatus_none (h : changeStatus k change fd s = (none, s')) :
    spec.settings s' = spec.settings s ∧ spec.faults s < spec.faults s' := by
  rw [changeStatus] at h
  rcases hget : k.getfl fd s with ⟨_ | flags, s₁⟩
  · simp only [hget, Prod.mk.injEq, true_and] at h
    exact h ▸ spec.getfl_none hget
  · simp only [hget] at h
    obtain ⟨rfl, hsame, hle⟩ := spec.getfl_some hget
    rcases hset : k.setfl fd (change ((spec.settings s).flags (spec.description fd))) s₁
      with ⟨_ | _, s₂⟩
    · simp only [hset, Prod.mk.injEq, true_and] at h
      obtain ⟨hsame', hlt⟩ := spec.setfl_false hset
      exact h ▸ ⟨hsame'.trans hsame, hle.trans_lt hlt⟩
    · simp [hset] at h

theorem Settings.change_or (honly : OnlyNonblock k change) (v : Settings τ) (d e : ℕ) :
    (v.change change d).flags e ||| k.platform.oNonblock =
      v.flags e ||| k.platform.oNonblock := by
  rcases eq_or_ne e d with rfl | hne
  · simpa [Settings.change] using honly _
  · simp [Settings.change, hne]

/-- Flags that differ in `O_NONBLOCK` only are set, or that is a fault. -/
theorem putStatus_cases {t : Terminal τ κ} {flags : BitVec 32}
    (h : flags ||| k.platform.oNonblock =
      (spec.settings t.kernel).flags (spec.description fd) ||| k.platform.oNonblock) :
    (spec.settings (putStatus k fd flags t).kernel =
        (spec.settings t.kernel).change (fun _ => flags) (spec.description fd) ∧
      spec.faults t.kernel ≤ spec.faults (putStatus k fd flags t).kernel) ∨
    (spec.settings (putStatus k fd flags t).kernel = spec.settings t.kernel ∧
      spec.faults t.kernel < spec.faults (putStatus k fd flags t).kernel) := by
  rcases hset : k.setfl fd flags t.kernel with ⟨_ | _, s₁⟩
  · rw [putStatus, hset]
    exact Or.inr (spec.setfl_false hset)
  · rw [putStatus, hset]
    exact Or.inl (spec.setfl_true hset h)

/-- Taking a change back works, or is a fault that changes nothing. -/
theorem putStatus_back (honly : OnlyNonblock k change) {t : Terminal τ κ} {v : Settings τ}
    (h : spec.settings t.kernel = v.change change (spec.description fd)) :
    (spec.settings (putStatus k fd (v.flags (spec.description fd)) t).kernel = v ∧
      spec.faults t.kernel ≤
        spec.faults (putStatus k fd (v.flags (spec.description fd)) t).kernel) ∨
    (spec.settings (putStatus k fd (v.flags (spec.description fd)) t).kernel =
        spec.settings t.kernel ∧
      spec.faults t.kernel <
        spec.faults (putStatus k fd (v.flags (spec.description fd)) t).kernel) := by
  have hcurrent : v.flags (spec.description fd) ||| k.platform.oNonblock =
      (spec.settings t.kernel).flags (spec.description fd) ||| k.platform.oNonblock := by
    rw [h, Settings.change_or honly]
  rcases putStatus_cases spec hcurrent with ⟨hset, hle⟩ | hfault
  · refine Or.inl ⟨?_, hle⟩
    rw [hset, h, Settings.change_back]
  · exact Or.inr hfault

end Status

/-! ### The settings of the terminal -/

section Init

variable {k : Kernel τ κ} (spec : KernelSpec k) {s s' : Terminal τ κ} {status : ℤ}

/-- Putting the saved settings back works, or is a fault. -/
theorem resetTerminal_settings (s : Terminal τ κ) (htty : k.isatty = true) :
    (spec.settings (resetTerminal k s).kernel =
        { spec.settings s.kernel with termios := s.savedTermios } ∧
      spec.faults s.kernel ≤ spec.faults (resetTerminal k s).kernel) ∨
    spec.faults s.kernel < spec.faults (resetTerminal k s).kernel := by
  rcases hset : k.tcsetattr s.savedTermios s.kernel with ⟨_ | _, kernel⟩
  · refine Or.inr ?_
    rw [resetTerminal, termiosAtexit, hset]
    exact (spec.tcsetattr_false hset).2.2 htty
  · obtain ⟨-, new, -, hsettings, hle, rfl | hlt⟩ := spec.tcsetattr_true hset
    · refine Or.inl ?_
      rw [resetTerminal, termiosAtexit, hset]
      exact ⟨hsettings, hle⟩
    · refine Or.inr ?_
      rw [resetTerminal, termiosAtexit, hset]
      exact hlt

/-- Whatever happens, the flags are left alone. -/
theorem resetTerminal_flags (s : Terminal τ κ) :
    (spec.settings (resetTerminal k s).kernel).flags = (spec.settings s.kernel).flags ∧
      spec.faults s.kernel ≤ spec.faults (resetTerminal k s).kernel := by
  rcases hset : k.tcsetattr s.savedTermios s.kernel with ⟨_ | _, kernel⟩
  · obtain ⟨hsame, hle, -⟩ := spec.tcsetattr_false hset
    rw [resetTerminal, termiosAtexit, hset]
    exact ⟨congrArg Settings.flags hsame, hle⟩
  · obtain ⟨-, new, -, hsettings, hle, -⟩ := spec.tcsetattr_true hset
    rw [resetTerminal, termiosAtexit, hset]
    refine ⟨?_, hle⟩
    show (spec.settings kernel).flags = _
    rw [hsettings]

/-- Without a terminal nothing is reset. -/
theorem resetTerminal_of_no_tty (s : Terminal τ κ) (htty : k.isatty = false) :
    spec.settings (resetTerminal k s).kernel = spec.settings s.kernel := by
  rcases hset : k.tcsetattr s.savedTermios s.kernel with ⟨_ | _, kernel⟩
  · rw [resetTerminal, termiosAtexit, hset]
    exact (spec.tcsetattr_false hset).1
  · rw [(spec.tcsetattr_true hset).1] at htty
    cases htty

/-- An `init_terminal` that fails has met a fault, and with no other fault it changes no setting. -/
structure InitFailed (s s' : Terminal τ κ) : Prop where
  saved : s'.savedTermios = s.savedTermios ∨
    s'.savedTermios = (spec.settings s.kernel).termios
  handlers : s'.handlers = s.handlers
  flags : (spec.settings s'.kernel).flags = (spec.settings s.kernel).flags
  fault : spec.faults s.kernel < spec.faults s'.kernel
  back : spec.settings s'.kernel = spec.settings s.kernel ∨
    spec.faults s.kernel + 1 < spec.faults s'.kernel

/-- The settings before are in `saved_termios`, and a fault has been met since: then putting them
back is enough. -/
theorem initFailed_reset {v : Settings τ} {n : ℕ} {new : Termios τ} (htty : k.isatty = true)
    (hsettings : spec.settings s.kernel = { v with termios := new })
    (hsaved : s.savedTermios = v.termios) (hfault : n < spec.faults s.kernel) :
    (spec.settings (resetTerminal k s).kernel).flags = v.flags ∧
      n < spec.faults (resetTerminal k s).kernel ∧
      (spec.settings (resetTerminal k s).kernel = v ∨
        n + 1 < spec.faults (resetTerminal k s).kernel) := by
  obtain ⟨hflags, hle⟩ := resetTerminal_flags spec s
  refine ⟨by rw [hflags, hsettings], hfault.trans_le hle, ?_⟩
  rcases resetTerminal_settings spec s htty with ⟨hback, -⟩ | hlt
  · refine Or.inl ?_
    rw [hback, hsettings, hsaved]
  · exact Or.inr (by omega)

theorem initTerminal_failed (htty : k.isatty = true) (h : initTerminal k s = (status, s'))
    (hstatus : status < 0) : InitFailed spec s s' := by
  rw [initTerminal, if_pos htty] at h
  rcases hget : k.tcgetattr s.kernel with ⟨_ | buf, s₁⟩
  · simp only [hget, Prod.mk.injEq] at h
    obtain ⟨-, rfl⟩ := h
    obtain ⟨hsame, hlt⟩ := spec.tcgetattr_none hget
    exact ⟨Or.inl rfl, rfl, congrArg Settings.flags hsame, hlt, Or.inl hsame⟩
  simp only [hget] at h
  obtain ⟨rfl, hsame, hle⟩ := spec.tcgetattr_some hget
  rw [initSaved] at h
  dsimp only at h
  rcases hset : k.tcsetattr (k.platform.raw (spec.settings s.kernel).termios) s₁ with ⟨_ | _, s₂⟩
  · simp only [hset, Prod.mk.injEq] at h
    obtain ⟨-, rfl⟩ := h
    obtain ⟨hsame', -, hlt⟩ := spec.tcsetattr_false hset
    have hback := hsame'.trans hsame
    exact ⟨Or.inr rfl, rfl, congrArg Settings.flags hback, hle.trans_lt (hlt htty), Or.inl hback⟩
  simp only [hset] at h
  obtain ⟨-, new, hmerged, hsettings, hle', hnew⟩ := spec.tcsetattr_true hset
  rw [hsame] at hmerged hsettings
  rcases hagain : k.tcgetattr s₂ with ⟨_ | buf, s₃⟩
  · -- the settings cannot be read back
    simp only [hagain, Prod.mk.injEq] at h
    obtain ⟨-, rfl⟩ := h
    obtain ⟨hkept, hlt⟩ := spec.tcgetattr_none hagain
    obtain ⟨hflags, hfault, hback⟩ := initFailed_reset spec
      (s := ⟨s₃, (spec.settings s.kernel).termios, s.handlers⟩) htty (hkept.trans hsettings) rfl
      ((hle.trans hle').trans_lt hlt)
    exact ⟨Or.inr rfl, rfl, hflags, hfault, hback⟩
  simp only [hagain] at h
  obtain ⟨rfl, hkept, hle''⟩ := spec.tcgetattr_some hagain
  by_cases hrefused : k.platform.refused (spec.settings s₂).termios = true
  · -- not all changes were made, and that is a fault
    rw [if_pos hrefused] at h
    obtain ⟨-, rfl⟩ := Prod.mk.inj h
    have hlt : spec.faults s₁ < spec.faults s₂ := by
      refine hnew.resolve_left fun hall => ?_
      rw [hsettings, hall, Platform.raw_accepted spec.vmin_ne_vtime] at hrefused
      cases hrefused
    obtain ⟨hflags, hfault, hback⟩ := initFailed_reset spec
      (s := ⟨s₃, (spec.settings s.kernel).termios, s.handlers⟩) htty (hkept.trans hsettings) rfl
      ((hle.trans_lt hlt).trans_le hle'')
    exact ⟨Or.inr rfl, rfl, hflags, hfault, hback⟩
  · rw [if_neg hrefused] at h
    obtain ⟨rfl, -⟩ := Prod.mk.inj h
    exact absurd hstatus (by decide)

/-- An `init_terminal` that succeeds has made all the changes, and saved the settings before. -/
theorem initTerminal_done (htty : k.isatty = true) (h : initTerminal k s = (status, s'))
    (hstatus : ¬ status < 0) :
    spec.settings s'.kernel = { spec.settings s.kernel with
        termios := k.platform.raw (spec.settings s.kernel).termios } ∧
      s'.savedTermios = (spec.settings s.kernel).termios ∧ 0 < s'.handlers ∧
      spec.faults s.kernel ≤ spec.faults s'.kernel := by
  rw [initTerminal, if_pos htty] at h
  rcases hget : k.tcgetattr s.kernel with ⟨_ | buf, s₁⟩
  · simp only [hget, Prod.mk.injEq] at h
    exact absurd (h.1 ▸ by decide) hstatus
  simp only [hget] at h
  obtain ⟨rfl, hsame, hle⟩ := spec.tcgetattr_some hget
  rw [initSaved] at h
  dsimp only at h
  rcases hset : k.tcsetattr (k.platform.raw (spec.settings s.kernel).termios) s₁ with ⟨_ | _, s₂⟩
  · simp only [hset, Prod.mk.injEq] at h
    exact absurd (h.1 ▸ by decide) hstatus
  simp only [hset] at h
  obtain ⟨-, new, hmerged, hsettings, hle', -⟩ := spec.tcsetattr_true hset
  rw [hsame] at hmerged hsettings
  rcases hagain : k.tcgetattr s₂ with ⟨_ | buf, s₃⟩
  · simp only [hagain, Prod.mk.injEq] at h
    exact absurd (h.1 ▸ by decide) hstatus
  simp only [hagain] at h
  obtain ⟨rfl, hkept, hle''⟩ := spec.tcgetattr_some hagain
  by_cases hrefused : k.platform.refused (spec.settings s₂).termios = true
  · rw [if_pos hrefused] at h
    exact absurd ((Prod.mk.inj h).1 ▸ by decide) hstatus
  · rw [if_neg hrefused] at h
    obtain ⟨-, rfl⟩ := Prod.mk.inj h
    rw [hsettings, Bool.not_eq_true] at hrefused
    have hraw : new = k.platform.raw (spec.settings s.kernel).termios :=
      hmerged.eq_raw hrefused
    have hhandlers : 0 < (atexitTermios k
        (⟨s₃, (spec.settings s.kernel).termios, s.handlers⟩ : Terminal τ κ)).handlers := by
      have hpos := spec.atexitMax_pos
      rw [atexitTermios]
      split_ifs with hroom
      · exact Nat.succ_pos _
      · exact hpos.trans_le (not_lt.mp hroom)
    have hkernel : (atexitTermios k
        (⟨s₃, (spec.settings s.kernel).termios, s.handlers⟩ : Terminal τ κ)).kernel = s₃ ∧
        (atexitTermios k (⟨s₃, (spec.settings s.kernel).termios, s.handlers⟩ :
          Terminal τ κ)).savedTermios = (spec.settings s.kernel).termios := by
      rw [atexitTermios]
      split_ifs <;> exact ⟨rfl, rfl⟩
    refine ⟨?_, hkernel.2, hhandlers, ?_⟩
    · rw [hkernel.1, hkept, hsettings, hraw]
    · rw [hkernel.1]
      exact hle.trans (hle'.trans hle'')

end Init

/-! ### Both descriptors -/

section Both

variable {k : Kernel τ κ} (spec : KernelSpec k) (data : DeviceIoImplData)
  {change change' : BitVec 32 → BitVec 32}

/-- The flags of both descriptors are changed, which may be those of one description. -/
def bothFlags (change : BitVec 32 → BitVec 32) (v : Settings τ) : Settings τ :=
  (v.change change (spec.description data.infd)).change change (spec.description data.outfd)

/-- The settings with both descriptors nonblocking. -/
def nonblocking : Settings τ → Settings τ :=
  bothFlags spec data fun flags => flags ||| k.platform.oNonblock

/-- The settings with both descriptors blocking. -/
def blocking : Settings τ → Settings τ :=
  bothFlags spec data fun flags => flags &&& ~~~k.platform.oNonblock

/-- It does not matter if the two are one. -/
theorem bothFlags_flags (hidem : ∀ flags, change (change flags) = change flags) (v : Settings τ)
    (d : ℕ) :
    (bothFlags spec data change v).flags d =
      if d = spec.description data.infd ∨ d = spec.description data.outfd then
        change (v.flags d) else v.flags d := by
  rcases eq_or_ne d (spec.description data.outfd) with rfl | hout
  · rcases eq_or_ne (spec.description data.outfd) (spec.description data.infd) with heq | hne
    · simp [bothFlags, Settings.change, heq, hidem]
    · simp [bothFlags, Settings.change, hne]
  · rcases eq_or_ne d (spec.description data.infd) with rfl | hin
    · simp [bothFlags, Settings.change, hout]
    · simp [bothFlags, Settings.change, hout, hin]

/-- A change hides what was changed before. -/
theorem bothFlags_bothFlags (hidem : ∀ flags, change (change flags) = change flags)
    (hidem' : ∀ flags, change' (change' flags) = change' flags)
    (hhides : ∀ flags, change (change' flags) = change flags) (v : Settings τ) :
    bothFlags spec data change (bothFlags spec data change' v) =
      bothFlags spec data change v := by
  refine Settings.ext (funext fun d => ?_) rfl
  rw [bothFlags_flags spec data hidem, bothFlags_flags spec data hidem',
    bothFlags_flags spec data hidem]
  split_ifs
  · exact hhides _
  · rfl

theorem on_idem (flags mask : BitVec 32) : flags ||| mask ||| mask = flags ||| mask := by
  rw [BitVec.or_assoc, BitVec.or_self]

theorem off_idem (flags mask : BitVec 32) :
    flags &&& ~~~mask &&& ~~~mask = flags &&& ~~~mask := by
  rw [BitVec.and_assoc, BitVec.and_self]

theorem off_on (flags mask : BitVec 32) : (flags ||| mask) &&& ~~~mask = flags &&& ~~~mask := by
  refine BitVec.eq_of_getLsbD_eq fun i hi => ?_
  simp only [BitVec.getLsbD_or, BitVec.getLsbD_and, BitVec.getLsbD_not, hi, decide_true,
    Bool.true_and]
  cases mask.getLsbD i <;> simp

theorem on_off (flags mask : BitVec 32) : flags &&& ~~~mask ||| mask = flags ||| mask := by
  refine BitVec.eq_of_getLsbD_eq fun i hi => ?_
  simp only [BitVec.getLsbD_or, BitVec.getLsbD_and, BitVec.getLsbD_not, hi, decide_true,
    Bool.true_and]
  cases mask.getLsbD i <;> simp

theorem blocking_nonblocking (v : Settings τ) :
    blocking spec data (nonblocking spec data v) = blocking spec data v :=
  bothFlags_bothFlags spec data (fun _ => off_idem _ _) (fun _ => on_idem _ _)
    (fun _ => off_on _ _) v

theorem nonblocking_blocking (v : Settings τ) :
    nonblocking spec data (blocking spec data v) = nonblocking spec data v :=
  bothFlags_bothFlags spec data (fun _ => on_idem _ _) (fun _ => off_idem _ _)
    (fun _ => on_off _ _) v

/-- Both descriptors are changed, or neither and a fault is met. -/
theorem changeBoth {s s₁ s₂ : κ} {infdOld outfdOld : BitVec 32} (honly : OnlyNonblock k change)
    (hin : changeStatus k change data.infd s = (some infdOld, s₁))
    (hout : changeStatus k change data.outfd s₁ = (some outfdOld, s₂)) :
    infdOld = (spec.settings s).flags (spec.description data.infd) ∧
      outfdOld = ((spec.settings s).change change (spec.description data.infd)).flags
        (spec.description data.outfd) ∧
      spec.settings s₂ = bothFlags spec data change (spec.settings s) ∧
      spec.faults s ≤ spec.faults s₂ := by
  obtain ⟨rfl, hsettings, hle⟩ := changeStatus_some spec honly hin
  obtain ⟨rfl, hsettings', hle'⟩ := changeStatus_some spec honly hout
  exact ⟨rfl, by rw [hsettings], by rw [hsettings', hsettings]; rfl, hle.trans hle'⟩

/-- The second descriptor cannot be changed: the first is changed back. -/
theorem changeFirst_back {s s₁ s₂ : κ} {infdOld : BitVec 32} (honly : OnlyNonblock k change)
    (hin : changeStatus k change data.infd s = (some infdOld, s₁))
    (hout : changeStatus k change data.outfd s₁ = (none, s₂)) (t : Terminal τ κ)
    (ht : t.kernel = s₂) :
    spec.faults s < spec.faults (putStatus k data.infd infdOld t).kernel ∧
      (spec.settings (putStatus k data.infd infdOld t).kernel = spec.settings s ∨
        spec.faults s + 1 < spec.faults (putStatus k data.infd infdOld t).kernel) := by
  obtain ⟨rfl, hsettings, hle⟩ := changeStatus_some spec honly hin
  obtain ⟨hsame, hlt⟩ := changeStatus_none spec hout
  have hfirst : spec.settings t.kernel =
      (spec.settings s).change change (spec.description data.infd) := by
    rw [ht, hsame, hsettings]
  have hmet : spec.faults s < spec.faults t.kernel := ht ▸ hle.trans_lt hlt
  rcases putStatus_back spec honly hfirst with ⟨hback, hle'⟩ | ⟨-, hlt'⟩
  · exact ⟨hmet.trans_le hle', Or.inl hback⟩
  · exact ⟨hmet.trans hlt', Or.inr (by omega)⟩

/-- Both are changed back, the second one first, or a fault is met. -/
theorem putBoth_back (honly : OnlyNonblock k change) {t : Terminal τ κ} {v : Settings τ}
    (h : spec.settings t.kernel = bothFlags spec data change v) :
    let t' := putStatus k data.infd (v.flags (spec.description data.infd))
      (putStatus k data.outfd ((v.change change (spec.description data.infd)).flags
        (spec.description data.outfd)) t)
    (spec.settings t'.kernel = v ∧ spec.faults t.kernel ≤ spec.faults t'.kernel) ∨
      spec.faults t.kernel < spec.faults t'.kernel := by
  dsimp only
  rcases putStatus_back spec honly (v := v.change change (spec.description data.infd)) h with
    ⟨hback, hle⟩ | ⟨hsame, hlt⟩
  · rcases putStatus_back spec honly hback with ⟨hback', hle'⟩ | ⟨-, hlt'⟩
    · exact Or.inl ⟨hback', hle.trans hle'⟩
    · exact Or.inr (hle.trans_lt hlt')
  · -- the first call fails, and the second is made all the same
    refine Or.inr (hlt.trans_le ?_)
    have hcurrent : v.flags (spec.description data.infd) ||| k.platform.oNonblock =
        (spec.settings (putStatus k data.outfd ((v.change change
          (spec.description data.infd)).flags (spec.description data.outfd)) t).kernel).flags
          (spec.description data.infd) ||| k.platform.oNonblock := by
      rw [hsame, h, bothFlags, Settings.change_or honly, Settings.change_or honly]
    rcases putStatus_cases spec hcurrent with ⟨-, hle'⟩ | ⟨-, hlt'⟩
    · exact hle'
    · exact hlt'.le

end Both

/-! ### `io_impl_start` and `io_impl_end` -/

section StartEnd

variable {k : Kernel τ κ} (spec : KernelSpec k) (data : DeviceIoImplData)
  {s s' : Terminal τ κ} {status : ℤ}

/-- The settings while a program runs. -/
def running (v : Settings τ) : Settings τ :=
  { nonblocking spec data v with
    termios := if k.isatty then k.platform.raw v.termios else v.termios }

/-- **A start that succeeds** has changed all settings, and remembers those of the terminal. -/
structure Started (s s' : Terminal τ κ) : Prop where
  settings : spec.settings s'.kernel = running spec data (spec.settings s.kernel)
  saved : k.isatty = true → s'.savedTermios = (spec.settings s.kernel).termios ∧ 0 < s'.handlers
  unsaved : k.isatty = false → s'.handlers = s.handlers
  faults : spec.faults s.kernel ≤ spec.faults s'.kernel

theorem ioImplStart_done (h : ioImplStart k data s = (status, s')) (hstatus : ¬ status < 0) :
    Started spec data s s' := by
  rw [ioImplStart] at h
  rcases hin : setNonblock k data.infd s.kernel with ⟨_ | infdOld, s₁⟩
  · simp only [hin, Prod.mk.injEq] at h
    exact absurd (h.1 ▸ by decide) hstatus
  simp only [hin] at h
  rcases hout : setNonblock k data.outfd s₁ with ⟨_ | outfdOld, s₂⟩
  · simp only [hout, Prod.mk.injEq] at h
    exact absurd (h.1 ▸ by decide) hstatus
  simp only [hout] at h
  obtain ⟨-, -, hboth, hle⟩ := changeBoth spec data (onlyNonblock_on k) hin hout
  rcases hinit : initTerminal k ⟨s₂, s.savedTermios, s.handlers⟩ with ⟨status₁, s₃⟩
  rw [hinit] at h
  dsimp only at h
  by_cases hfail : status₁ < 0
  · rw [if_pos hfail] at h
    exact absurd ((Prod.mk.inj h).1 ▸ by decide) hstatus
  rw [if_neg hfail] at h
  obtain ⟨-, rfl⟩ := Prod.mk.inj h
  have hnonblocking : spec.settings s₂ = nonblocking spec data (spec.settings s.kernel) := hboth
  cases htty : k.isatty with
  | true =>
    obtain ⟨hsettings, hsaved, hhandlers, hle'⟩ := initTerminal_done spec htty hinit hfail
    dsimp only at hsettings hsaved hle'
    refine ⟨?_, fun _ => ⟨?_, hhandlers⟩, fun h => (by simp [htty] at h), hle.trans hle'⟩
    · rw [hsettings, hnonblocking, running, if_pos htty]
      rfl
    · rw [hsaved, hnonblocking]
      rfl
  | false =>
    rw [initTerminal, if_neg (by simp [htty])] at hinit
    obtain ⟨-, rfl⟩ := Prod.mk.inj hinit
    refine ⟨?_, fun h => (by simp [htty] at h), fun _ => rfl, hle⟩
    rw [running, if_neg (by simp [htty])]
    exact hnonblocking

/-- **A start that fails** has met a fault, and with no other fault it leaves the settings as they
were. -/
structure StartFailed (s s' : Terminal τ κ) : Prop where
  saved : s'.savedTermios = s.savedTermios ∨
    s'.savedTermios = (spec.settings s.kernel).termios
  handlers : s'.handlers = s.handlers
  fault : spec.faults s.kernel < spec.faults s'.kernel
  back : spec.settings s'.kernel = spec.settings s.kernel ∨
    spec.faults s.kernel + 1 < spec.faults s'.kernel

theorem ioImplStart_failed (h : ioImplStart k data s = (status, s')) (hstatus : status < 0) :
    StartFailed spec s s' := by
  rw [ioImplStart] at h
  rcases hin : setNonblock k data.infd s.kernel with ⟨_ | infdOld, s₁⟩
  · simp only [hin, Prod.mk.injEq] at h
    obtain ⟨-, rfl⟩ := h
    obtain ⟨hsame, hlt⟩ := changeStatus_none spec hin
    exact ⟨Or.inl rfl, rfl, hlt, Or.inl hsame⟩
  simp only [hin] at h
  rcases hout : setNonblock k data.outfd s₁ with ⟨_ | outfdOld, s₂⟩
  · simp only [hout, Prod.mk.injEq] at h
    obtain ⟨-, rfl⟩ := h
    obtain ⟨hfault, hback⟩ := changeFirst_back spec data (onlyNonblock_on k) hin hout
      ⟨s₂, s.savedTermios, s.handlers⟩ rfl
    exact ⟨Or.inl rfl, rfl, hfault, hback⟩
  simp only [hout] at h
  obtain ⟨hinOld, houtOld, hboth, hle⟩ := changeBoth spec data (onlyNonblock_on k) hin hout
  rcases hinit : initTerminal k ⟨s₂, s.savedTermios, s.handlers⟩ with ⟨status₁, s₃⟩
  rw [hinit] at h
  dsimp only at h
  by_cases hfail : status₁ < 0
  · -- the flags are set back in the opposite order
    rw [if_pos hfail] at h
    obtain ⟨-, rfl⟩ := Prod.mk.inj h
    have htty : k.isatty = true := by
      by_contra htty
      rw [initTerminal, if_neg htty] at hinit
      have hzero := (Prod.mk.inj hinit).1
      omega
    obtain ⟨hsaved, hhandlers, hflags, hfault, hback⟩ :=
      initTerminal_failed spec htty hinit hfail
    dsimp only at hsaved hhandlers hflags hfault hback
    rw [hboth] at hsaved hflags hback
    obtain ⟨v, hv⟩ : ∃ v : Settings τ,
        v = { spec.settings s.kernel with termios := (spec.settings s₃.kernel).termios } :=
      ⟨_, rfl⟩
    have hs₃ : spec.settings s₃.kernel =
        bothFlags spec data (fun flags => flags ||| k.platform.oNonblock) v := by
      refine Settings.ext ?_ (by rw [hv]; rfl)
      rw [hflags, hv]
      rfl
    rw [hinOld, houtOld]
    obtain ⟨t', ht'⟩ : ∃ t', t' = putStatus k data.infd
        ((spec.settings s.kernel).flags (spec.description data.infd))
        (putStatus k data.outfd (((spec.settings s.kernel).change
          (fun flags => flags ||| k.platform.oNonblock) (spec.description data.infd)).flags
          (spec.description data.outfd)) s₃) := ⟨_, rfl⟩
    have hundo : (spec.settings t'.kernel = v ∧ spec.faults s₃.kernel ≤ spec.faults t'.kernel) ∨
        spec.faults s₃.kernel < spec.faults t'.kernel := by
      rw [ht']
      subst hv
      exact putBoth_back spec data (onlyNonblock_on k) hs₃
    refine ⟨hsaved, hhandlers, ?_, ?_⟩
    · rw [← ht']
      rcases hundo with ⟨-, hle'⟩ | hlt
      · exact (hle.trans_lt hfault).trans_le hle'
      · exact (hle.trans_lt hfault).trans hlt
    · rw [← ht']
      rcases hback with hkept | hmore
      · have hsame : v = spec.settings s.kernel := by
          rw [hv, hkept]
          rfl
        rcases hundo with ⟨hsettings, -⟩ | hlt
        · exact Or.inl (hsettings.trans hsame)
        · exact Or.inr (by omega)
      · rcases hundo with ⟨-, hle'⟩ | hlt <;> exact Or.inr (by omega)
  · rw [if_neg hfail] at h
    have hzero := (Prod.mk.inj h).1
    omega

/-- **An end that succeeds** has made both descriptors blocking. Without a fault it has put back the
settings of the terminal that were saved. -/
structure Ended (s s' : Terminal τ κ) : Prop where
  flags : (spec.settings s'.kernel).flags = (blocking spec data (spec.settings s.kernel)).flags
  termios : spec.faults s'.kernel = spec.faults s.kernel → (spec.settings s'.kernel).termios =
    if k.isatty then s.savedTermios else (spec.settings s.kernel).termios
  saved : s'.savedTermios = s.savedTermios
  handlers : s'.handlers = s.handlers
  faults : spec.faults s.kernel ≤ spec.faults s'.kernel

theorem ioImplEnd_done (h : ioImplEnd k data s = (status, s')) (hstatus : ¬ status < 0) :
    Ended spec data s s' := by
  rw [ioImplEnd] at h
  rcases hin : setBlocking k data.infd s.kernel with ⟨_ | infdOld, s₁⟩
  · simp only [hin, Prod.mk.injEq] at h
    exact absurd (h.1 ▸ by decide) hstatus
  simp only [hin] at h
  rcases hout : setBlocking k data.outfd s₁ with ⟨_ | outfdOld, s₂⟩
  · simp only [hout, Prod.mk.injEq] at h
    exact absurd (h.1 ▸ by decide) hstatus
  simp only [hout] at h
  obtain ⟨-, rfl⟩ := Prod.mk.inj h
  obtain ⟨-, -, hboth, hle⟩ := changeBoth spec data (onlyNonblock_off k) hin hout
  have hblocking : spec.settings s₂ = blocking spec data (spec.settings s.kernel) := hboth
  obtain ⟨hflags, hle'⟩ := resetTerminal_flags spec ⟨s₂, s.savedTermios, s.handlers⟩
  refine ⟨by rw [hflags, hblocking], fun hnone => ?_, rfl, rfl, hle.trans hle'⟩
  dsimp only at hle'
  cases htty : k.isatty with
  | true =>
    rw [if_pos rfl]
    rcases resetTerminal_settings spec ⟨s₂, s.savedTermios, s.handlers⟩ htty with
      ⟨hback, -⟩ | hlt
    · rw [hback]
    · dsimp only at hlt
      omega
  | false =>
    rw [if_neg (by decide), resetTerminal_of_no_tty spec _ htty, hblocking]
    rfl

/-- **An end that fails** has met a fault, and with no other fault it leaves the settings as they
were. -/
structure EndFailed (s s' : Terminal τ κ) : Prop where
  saved : s'.savedTermios = s.savedTermios
  handlers : s'.handlers = s.handlers
  back : spec.settings s'.kernel = spec.settings s.kernel ∨
    spec.faults s.kernel + 1 < spec.faults s'.kernel

theorem ioImplEnd_failed (h : ioImplEnd k data s = (status, s')) (hstatus : status < 0) :
    EndFailed spec s s' := by
  rw [ioImplEnd] at h
  rcases hin : setBlocking k data.infd s.kernel with ⟨_ | infdOld, s₁⟩
  · simp only [hin, Prod.mk.injEq] at h
    obtain ⟨-, rfl⟩ := h
    exact ⟨rfl, rfl, Or.inl (changeStatus_none spec hin).1⟩
  simp only [hin] at h
  rcases hout : setBlocking k data.outfd s₁ with ⟨_ | outfdOld, s₂⟩
  · simp only [hout, Prod.mk.injEq] at h
    obtain ⟨-, rfl⟩ := h
    exact ⟨rfl, rfl, (changeFirst_back spec data (onlyNonblock_off k) hin hout
      ⟨s₂, s.savedTermios, s.handlers⟩ rfl).2⟩
  · simp only [hout, Prod.mk.injEq] at h
    omega

end StartEnd

end Lc3Simulator
