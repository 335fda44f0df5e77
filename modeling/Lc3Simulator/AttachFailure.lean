import Lc3Simulator.Events

/-!
# What a failed attachment leaves behind

A device with separate addresses is attached one address at a time. When an address is taken, the
ones before it stay attached, although the device is not started and the caller is told that the
attachment failed. So a failed attachment changes nothing exactly when nothing had been attached
before the failure: for ranges, and for separate addresses of which the first is taken.

A simulator in which every attachment is of this kind never dispatches to a device that was not
started.

## Main definitions

* `AttachKeeps` — a failed attachment of the device leaves the address map and the subscriptions
* `AttachAtomic` — the condition on the device and the bus

## Main results

* `simulatorAttachDevice_keeps_iff` — the two are the same in every reachable state, and over runs
  that meet the condition every device that can be dispatched to was started
* `simulatorAttachDevice_leaves` — a device that is half attached and not started
-/

namespace Lc3Simulator

open IntervalTable Transition

/-! ### One list of addresses -/

section Bus

variable {libc : SortSearch BusAttachment} {bus : Bus} {device : DevicePtr} {address : Word}

theorem covers_point {a : Word} : Covers ⟨device, ⟨address, address⟩⟩ a ↔ a = address := by
  simp only [Covers, Contains, BusAttachment.low, BusAttachment.high]
  rw [← BitVec.toNat_inj]
  omega

/-- A single address is taken exactly when it is flagged. -/
theorem busContainsInterval_point (h : MapInvariant bus) :
    busContainsInterval bus ⟨address, address⟩ = (bus.memory address).attachmentFlag := by
  rw [Bool.eq_iff_iff, h.flag_iff, busContainsInterval, containsInterval_iff 0 h.sorted]
  exact exists_congr fun a => and_congr_right fun _ => and_comm

/-- Adding a free address flags that address. -/
theorem busAddAttachment_point (libc : SortSearch BusAttachment) (device : DevicePtr)
    (address : Word) (h : MapInvariant bus) :
    ((bus.memory address).attachmentFlag = true ∧
      busAddAttachment libc bus device ⟨address, address⟩ = (-1, bus)) ∨
    ((bus.memory address).attachmentFlag = false ∧
      ∃ bus', busAddAttachment libc bus device ⟨address, address⟩ = (0, bus') ∧
        Extends bus bus' ⟨device, ⟨address, address⟩⟩) := by
  rw [← busContainsInterval_point h]
  exact busAddAttachment_cases libc bus device ⟨address, address⟩

/-- Separate addresses are attached when they are all free and no two are the same. -/
theorem addAttachments_status (libc : SortSearch BusAttachment) (device : DevicePtr)
    (h : MapInvariant bus) (addresses : List Word) :
    ((addAttachments libc bus device addresses).1 = 0 ∧ addresses.Nodup ∧
      ∀ a ∈ addresses, (bus.memory a).attachmentFlag = false) ∨
    ((addAttachments libc bus device addresses).1 = -1 ∧ ¬ (addresses.Nodup ∧
      ∀ a ∈ addresses, (bus.memory a).attachmentFlag = false)) := by
  induction addresses generalizing bus with
  | nil => simp [addAttachments]
  | cons address rest ih =>
    rw [addAttachments]
    rcases busAddAttachment_point libc device address h with
      ⟨htaken, heq⟩ | ⟨hfree, bus', heq, hext⟩
    · rw [heq]
      simp [htaken]
    · rw [heq, if_neg (lt_irrefl (0 : ℤ))]
      have hflag : ∀ a, (bus'.memory a).attachmentFlag = false ↔
          (bus.memory a).attachmentFlag = false ∧ a ≠ address := by
        intro a
        have := hext.flag_iff a
        rw [covers_point] at this
        grind
      rcases ih (hext.mapInvariant h) with ⟨hstatus, hnodup, hall⟩ | ⟨hstatus, hnot⟩
      · left
        grind
      · right
        grind

/-- Attaching more never makes the list shorter. -/
theorem length_le_addAttachments (libc : SortSearch BusAttachment) (bus : Bus) (device : DevicePtr)
    (addresses : List Word) :
    bus.attachments.length ≤ (addAttachments libc bus device addresses).2.attachments.length := by
  refine addAttachments_induction (I := fun bus' => _ ≤ bus'.attachments.length)
    (fun bus' a _ hle => ?_) le_rfl
  rcases busAddAttachment_cases libc bus' device ⟨a, a⟩ with
    ⟨-, heq⟩ | ⟨-, bus'', heq, hext⟩ <;> rw [heq]
  · exact hle
  · rw [hext.perm.length_eq, List.length_append]
    exact hle.trans (Nat.le_add_right _ _)

/-- A refused range leaves the bus alone. -/
theorem busAttach_range_fails {ω : Type} {vtable : Device ω} {bus' : Bus} {status : ℤ}
    (hmethod : vtable.getAddressMethod = .range) (hfail : status < 0)
    (h : busAttach libc vtable bus device = some (status, bus')) : bus' = bus := by
  obtain ⟨interval, -, hadd⟩ := busAttach_range hmethod h
  rcases busAddAttachment_cases libc bus device interval with
    ⟨-, heq⟩ | ⟨-, bus'', heq, -⟩ <;> rw [heq] at hadd <;> obtain ⟨rfl, rfl⟩ := Prod.mk.inj hadd
  · rfl
  · exact absurd hfail (lt_irrefl 0)

/-- Nothing is asked for, or the first address is taken, or all are free and different. -/
def AddressesAtomic (bus : Bus) (addresses : List Word) : Prop :=
  ∀ address rest, addresses = address :: rest → (bus.memory address).attachmentFlag = true ∨
    (addresses.Nodup ∧ ∀ a ∈ addresses, (bus.memory a).attachmentFlag = false)

/-- Refused separate addresses leave the address map alone in these cases only: otherwise the first
one is attached and stays. -/
theorem addAttachments_keeps_iff (libc : SortSearch BusAttachment) (device : DevicePtr)
    (h : MapInvariant bus) (addresses : List Word) :
    ((addAttachments libc bus device addresses).1 < 0 →
      (addAttachments libc bus device addresses).2.attachments = bus.attachments ∧
      ∀ a, ((addAttachments libc bus device addresses).2.memory a).attachmentFlag =
        (bus.memory a).attachmentFlag) ↔ AddressesAtomic bus addresses := by
  cases addresses with
  | nil => exact iff_of_true (fun _ => ⟨rfl, fun _ => rfl⟩) fun _ _ h => absurd h (by simp)
  | cons address rest =>
    have hatomic : AddressesAtomic bus (address :: rest) ↔
        (bus.memory address).attachmentFlag = true ∨ ((address :: rest).Nodup ∧
          ∀ a ∈ address :: rest, (bus.memory a).attachmentFlag = false) :=
      ⟨fun h => h address rest rfl, fun h a r heq => (List.cons.inj heq).1 ▸ h⟩
    rw [hatomic]
    rcases busAddAttachment_point libc device address h with
      ⟨htaken, heq⟩ | ⟨hfree, bus', heq, hext⟩
    · refine iff_of_true (fun _ => ?_) (Or.inl htaken)
      simp [addAttachments, heq]
    · rcases addAttachments_status libc device h (address :: rest) with
        ⟨hzero, hall⟩ | ⟨hneg, hnot⟩
      · exact iff_of_true (fun hfail => absurd (hzero ▸ hfail) (lt_irrefl 0)) (Or.inr hall)
      · refine iff_of_false (fun hkeeps => ?_) ?_
        · have hsame := (hkeeps (hneg ▸ by decide)).1
          have hresult : addAttachments libc bus device (address :: rest) =
              addAttachments libc bus' device rest := by
            simp [addAttachments, heq]
          have hgrow := length_le_addAttachments libc bus' device rest
          rw [← hresult, hsame, hext.perm.length_eq, List.length_append] at hgrow
          exact absurd hgrow (by simp)
        · rintro (htaken | hall)
          · exact Bool.false_ne_true (hfree.symm.trans htaken)
          · exact hnot hall

end Bus

/-! ### Commands that attach nothing -/

section Frame

variable {ω ι : Type} {env : Env ω ι} {sim sim' : Simulator ω ι}

/-- **Only `attachDevice` changes the address map.** -/
theorem runCommand_sameMap {command : Command} {status : Option ℤ}
    (hcommand : ∀ d, command ≠ .attachDevice d)
    (h : runCommand env command sim = some (status, sim')) : SameMap sim.machine sim'.machine := by
  exact (runCommand_leads_of_ne hcommand h).invariant
    (I := fun sim₁ => SameMap sim.machine sim₁.machine)
    (fun e sim₁ out sim₂ hattach hsame hstep => hsame.trans (tickEvent_sameMap hattach hstep))
    (SameMap.refl _)

end Frame

/-! ### One attachment -/

section Attach

variable {ω ι : Type} {env : Env ω ι} {sim sim' : Simulator ω ι} {device : DevicePtr}

/-- If the attachment fails, the address map and the subscriptions are as before. -/
def AttachKeeps (env : Env ω ι) (sim : Simulator ω ι) (device : DevicePtr) : Prop :=
  ∀ sim', simulatorAttachDevice env sim device = some (-1, sim') →
    sim'.machine.bus.attachments = sim.machine.bus.attachments ∧
    (∀ a, (sim'.machine.bus.memory a).attachmentFlag =
      (sim.machine.bus.memory a).attachmentFlag) ∧
    sim'.onInputDevices = sim.onInputDevices ∧ sim'.onTickDevices = sim.onTickDevices

/-- The device declares a range, or addresses of which none is attached before one is refused. -/
def AttachAtomic (env : Env ω ι) (sim : Simulator ω ι) (device : DevicePtr) : Prop :=
  (env.device device).getAddressMethod = .range ∨
    AddressesAtomic sim.machine.bus (env.device device).getAddresses

/-- A failed attachment is one that the bus refuses. -/
theorem attachKeeps_iff : AttachKeeps env sim device ↔
    ∀ s bus, busAttach env.libc (env.device device) sim.machine.bus device = some (s, bus) → s < 0 →
      bus.attachments = sim.machine.bus.attachments ∧
      ∀ a, (bus.memory a).attachmentFlag = (sim.machine.bus.memory a).attachmentFlag := by
  constructor
  · intro h s bus hattach hfail
    have hrun : simulatorAttachDevice env sim device =
        some (-1, { sim with machine := { sim.machine with bus } }) := by
      simp [simulatorAttachDevice, hattach, hfail]
    obtain ⟨hattachments, hflag, -⟩ := h _ hrun
    exact ⟨hattachments, hflag⟩
  · intro h sim' hrun
    obtain ⟨s, bus, hattach, ⟨hfail, -, rfl⟩ | ⟨-, hstatus, -⟩⟩ := simulatorAttachDevice_cases hrun
    · obtain ⟨hattachments, hflag⟩ := h s bus hattach hfail
      exact ⟨hattachments, hflag, rfl, rfl⟩
    · exact absurd hstatus (by decide)

theorem attachKeeps_iff_attachAtomic (hmap : MapInvariant sim.machine.bus) :
    AttachKeeps env sim device ↔ AttachAtomic env sim device := by
  rw [attachKeeps_iff]
  cases hmethod : (env.device device).getAddressMethod with
  | range =>
    refine iff_of_true (fun s bus hattach hfail => ?_) (Or.inl hmethod)
    rw [busAttach_range_fails hmethod hfail hattach]
    exact ⟨rfl, fun _ => rfl⟩
  | seperate =>
    have hatomic : AttachAtomic env sim device ↔
        AddressesAtomic sim.machine.bus (env.device device).getAddresses := by
      simp [AttachAtomic, hmethod]
    rw [busAttach_seperate hmethod, hatomic, ← addAttachments_keeps_iff env.libc device hmap]
    refine ⟨fun h hfail => h _ _ rfl hfail, fun h s bus heq hfail => ?_⟩
    have hresult := Option.some.inj heq
    rw [hresult] at h
    exact h hfail

end Attach

/-! ### Every sequence of commands -/

section Run

variable {ω ι : Type} {env : Env ω ι} {sim sim' sim₀ : Simulator ω ι}

theorem SameMap.mapInvariant {m m' : Machine ω ι} (h : SameMap m m') (hmap : MapInvariant m.bus) :
    MapInvariant m'.bus := by
  refine ⟨h.attachments ▸ hmap.sorted, fun address => ?_⟩
  rw [h.flag, h.attachments]
  exact hmap.flag_iff address

/-- Every device in the address map was started. -/
def AllStarted (m : Machine ω ι) : Prop := ∀ a ∈ m.bus.attachments, a.device ∈ m.started

theorem simulatorNew_sameMap {devices : ω} {deviceIo : ι}
    (h : simulatorNew env devices deviceIo = some sim₀) :
    MapInvariant sim₀.machine.bus ∧ AllStarted sim₀.machine := by
  rw [simulatorNew] at h
  obtain ⟨⟨cpu, machine⟩, hrun, h⟩ := Option.bind_eq_some_iff.mp h
  obtain rfl := Option.some.inj h
  have hsame := run_sameMap hrun
  refine ⟨hsame.mapInvariant mapInvariant_new, fun a ha => ?_⟩
  rw [hsame.attachments] at ha
  cases ha

theorem runCommand_mapInvariant {command : Command} {out : Option ℤ}
    (hmap : MapInvariant sim.machine.bus) (h : runCommand env command sim = some (out, sim')) :
    MapInvariant sim'.machine.bus := by
  by_cases hattach : ∃ d, command = .attachDevice d
  · obtain ⟨d, rfl⟩ := hattach
    obtain ⟨status, hrun, -⟩ := runCommand_attachDevice h
    obtain ⟨s, bus, hattach, ⟨-, -, rfl⟩ | ⟨-, -, machine, hstart, rfl⟩⟩ :=
      simulatorAttachDevice_cases hrun
    · exact busAttach_mapInvariant hmap hattach
    · obtain ⟨hbus, -⟩ := callStart_eq_some hstart
      rw [simulatorCheckDeviceSubscriptions_machine, hbus]
      exact busAttach_mapInvariant hmap hattach
  · exact (runCommand_sameMap (fun d hd => hattach ⟨d, hd⟩) h).mapInvariant hmap

/-- An attachment records its own device and no other. -/
theorem busAttach_device {ω : Type} {libc : SortSearch BusAttachment} {vtable : Device ω}
    {bus bus' : Bus} {device : DevicePtr} {status : ℤ}
    (h : busAttach libc vtable bus device = some (status, bus')) :
    ∀ a ∈ bus'.attachments, a ∈ bus.attachments ∨ a.device = device := by
  refine busAttach_induction
    (I := fun bus' => ∀ a ∈ bus'.attachments, a ∈ bus.attachments ∨ a.device = device)
    (fun bus' interval _ hbus' => ?_) (fun a ha => Or.inl ha) h
  rcases busAddAttachment_cases libc bus' device interval with
    ⟨-, heq⟩ | ⟨-, bus'', heq, hext⟩ <;> rw [heq]
  · exact hbus'
  · intro a ha
    rcases hext.mem_iff.mp ha with ha | rfl
    · exact hbus' a ha
    · exact Or.inr rfl

/-- The condition on a command: an attachment is atomic. -/
def CommandAtomic (env : Env ω ι) : Command → Simulator ω ι → Prop
  | .attachDevice device, sim => AttachAtomic env sim device
  | _, _ => True

theorem runCommand_allStarted {command : Command} {out : Option ℤ}
    (hmap : MapInvariant sim.machine.bus) (hatomic : CommandAtomic env command sim)
    (hstarted : AllStarted sim.machine) (h : runCommand env command sim = some (out, sim')) :
    AllStarted sim'.machine := by
  by_cases hattach : ∃ d, command = .attachDevice d
  · obtain ⟨d, rfl⟩ := hattach
    obtain ⟨status, hrun, -⟩ := runCommand_attachDevice h
    have hkeeps : AttachKeeps env sim d := (attachKeeps_iff_attachAtomic hmap).mpr hatomic
    obtain ⟨s, bus, hattach, ⟨-, rfl, rfl⟩ | ⟨-, -, machine, hstart, rfl⟩⟩ :=
      simulatorAttachDevice_cases hrun
    · intro a ha
      rw [(hkeeps _ hrun).1] at ha
      exact hstarted a ha
    · obtain ⟨hbus, hlist⟩ := callStart_eq_some hstart
      intro a ha
      rw [simulatorCheckDeviceSubscriptions_machine] at ha ⊢
      rw [hbus] at ha
      rw [hlist]
      rcases busAttach_device hattach a ha with ha | hd
      · exact List.mem_cons_of_mem d (hstarted a ha)
      · exact hd ▸ List.mem_cons_self
  · have hsame := runCommand_sameMap (fun d hd => hattach ⟨d, hd⟩) h
    intro a ha
    rw [hsame.started]
    exact hstarted a (hsame.attachments ▸ ha)

/-- **A failed attachment changes nothing, except where it had already attached something.** In
every state that commands lead to, a failed attachment of a device leaves the address map and the
subscriptions as they were exactly when the device declares a range, or separate addresses of which
none is attached before one is refused. If all attachments so far were of this kind, then every
device that a search for an address finds was started. -/
theorem simulatorAttachDevice_keeps_iff {devices : ω} {deviceIo : ι} {commands : List Command}
    {outs : List (Option ℤ)} (hnew : simulatorNew env devices deviceIo = some sim₀)
    (hrun : run (runCommand env) commands sim₀ = some (outs, sim)) :
    (∀ device, AttachKeeps env sim device ↔ AttachAtomic env sim device) ∧
    (Along (runCommand env) (CommandAtomic env) commands sim₀ → ∀ address a,
      busSearch env.libc sim.machine.bus address = some a → a.device ∈ sim.machine.started) := by
  obtain ⟨hmap₀, hstarted₀⟩ := simulatorNew_sameMap hnew
  have hmap : MapInvariant sim.machine.bus :=
    run_invariant (I := fun sim : Simulator ω ι => MapInvariant sim.machine.bus)
      (fun _ _ _ _ hmap h => runCommand_mapInvariant hmap h) hmap₀ hrun
  refine ⟨fun device => attachKeeps_iff_attachAtomic hmap, fun halong address a hsearch => ?_⟩
  have hboth := run_invariant_of_along
    (I := fun sim : Simulator ω ι => MapInvariant sim.machine.bus ∧ AllStarted sim.machine)
    (fun _ _ _ _ hatomic hI h =>
      ⟨runCommand_mapInvariant hI.1 h, runCommand_allStarted hI.1 hatomic hI.2 h⟩)
    halong ⟨hmap₀, hstarted₀⟩ hrun
  exact hboth.2 a (env.libc.bsearch_matches hsearch).1

end Run

/-- Device 0 declares the addresses 2 and 3, any other device the addresses 5 and 3. -/
def seperateEnv : Env Unit Unit where
  libc := SortSearch.bisecting _
  device d := { inertDevice with getAddresses := if d = 0 then [2, 3] else [5, 3] }
  deviceIo := silentIo

/-- A new simulator, and one attachment. -/
theorem simulatorAttachDevice_keeps_iff_seperate :
    ∃ sim₀ outs sim, simulatorNew seperateEnv () () = some sim₀ ∧
      run (runCommand seperateEnv) [.attachDevice 0] sim₀ = some (outs, sim) ∧
      (∀ device, AttachKeeps seperateEnv sim device ↔ AttachAtomic seperateEnv sim device) ∧
      ∀ address a, busSearch seperateEnv.libc sim.machine.bus address = some a →
        a.device ∈ sim.machine.started := by
  obtain ⟨sim₀, hnew⟩ : ∃ sim₀, simulatorNew seperateEnv () () = some sim₀ := ⟨_, rfl⟩
  have hfree : (sim₀.machine.bus.memory 2).attachmentFlag = false ∧
      (sim₀.machine.bus.memory 3).attachmentFlag = false := by
    obtain rfl := Option.some.inj hnew
    exact ⟨rfl, rfl⟩
  obtain ⟨outs, sim, hrun⟩ : ∃ outs sim,
      run (runCommand seperateEnv) [.attachDevice 0] sim₀ = some (outs, sim) := by
    obtain rfl := Option.some.inj hnew
    exact ⟨_, _, rfl⟩
  obtain ⟨hiff, hstarted⟩ := simulatorAttachDevice_keeps_iff hnew hrun
  refine ⟨sim₀, outs, sim, hnew, hrun, hiff, hstarted ⟨Or.inr ?_, fun _ _ _ => trivial⟩⟩
  exact fun _ _ _ => Or.inr ⟨by decide, by simpa [seperateEnv] using hfree⟩

/-- Attach device 0 and then device 1, whose second address is taken. The attachment fails, and
address 5 leads to device 1 from then on, which was not started. -/
theorem simulatorAttachDevice_leaves :
    ∃ sim₀ sim₁ sim₂, simulatorNew seperateEnv () () = some sim₀ ∧
      simulatorAttachDevice seperateEnv sim₀ 0 = some (0, sim₁) ∧
      simulatorAttachDevice seperateEnv sim₁ 1 = some (-1, sim₂) ∧
      ¬ AttachKeeps seperateEnv sim₁ 1 ∧
      (sim₂.machine.bus.memory 5).attachmentFlag = true ∧
      busSearch seperateEnv.libc sim₂.machine.bus 5 = some ⟨1, ⟨5, 5⟩⟩ ∧
      1 ∉ sim₂.machine.started := by
  refine ⟨_, _, _, rfl, rfl, rfl, fun hkeeps => ?_, by decide, by decide, by decide⟩
  have hsame := congrArg List.length (hkeeps _ rfl).1
  exact absurd hsame (by decide)

end Lc3Simulator
