import Mathlib.Algebra.Ring.Nat
import Lc3Simulator.Library.IntervalTable
import Lc3Simulator.Library.Transition
import Lc3Simulator.Machine

/-!
# The address map finds the device of an address

The bus keeps the addresses of the devices three times over: as a sorted list of intervals, as a
flag at every address, and in the order that a binary search relies on. The three agree on every
bus that devices with proper ranges have been attached to, whether or not their attachment
succeeded: the list is an interval table and the flags say which addresses it covers.

The bus does not check that a range is proper. A range whose ends are the wrong way round covers
nothing and overlaps nothing, but it is sorted in among the others, where it can turn the search
away from an attachment that was found before.

## Main definitions

* `BusInvariant` — the attachments are an interval table, the flags are its points
* `Device.WellDeclared` — devices that declare proper ranges
* `ReachesDevice` — an access to an address is an access to a register of a device

## Main results

* `busAttach_dispatch` — the invariant of every bus, and what an access does on it
* `busAttach_keeps_dispatch` — attaching a device with a proper range leaves every address where
  it led
* `busAttach_breaks_dispatch` — attaching one without need not
-/

namespace Lc3Simulator

open IntervalTable Transition

/-! ### Attachments as intervals -/

/-- The ends of an attachment. -/
def BusAttachment.low (a : BusAttachment) : ℕ := a.range.low.toNat
def BusAttachment.high (a : BusAttachment) : ℕ := a.range.high.toNat

/-- The interval of an attachment contains the address. -/
def Covers (a : BusAttachment) (address : Word) : Prop :=
  Contains BusAttachment.low BusAttachment.high a address.toNat

theorem intervalsOverlap_iff {a : BusAttachment} {device : DevicePtr} {interval : Interval} :
    intervalsOverlap a.range interval = true ↔
      Overlap BusAttachment.low BusAttachment.high a ⟨device, interval⟩ := by
  simp [intervalsOverlap, Overlap, BusAttachment.low, BusAttachment.high, BitVec.le_def]

theorem attachmentComparator_consistent : Consistent attachmentComparator where
  total a b := by unfold attachmentComparator; omega
  trans a b c := by unfold attachmentComparator; omega

theorem attachmentComparator_nonpos {a b : BusAttachment} :
    attachmentComparator a b ≤ 0 ↔ a.low ≤ b.low := by
  simp only [attachmentComparator, BusAttachment.low]
  omega

/-- The comparison of the search is the comparison of a point with an interval. -/
theorem bsearchAttachmentComparator_eq (address : Word) :
    bsearchAttachmentComparator address =
      locate BusAttachment.low BusAttachment.high address.toNat := by
  funext a
  simp only [bsearchAttachmentComparator, gt_iff_lt, BitVec.lt_def]
  rfl

/-- In a sorted list, the attachments behind the first that starts beyond the interval do not
overlap it either. -/
theorem containsInterval_iff {interval : Interval} {l : List BusAttachment} (device : DevicePtr)
    (h : Sorted BusAttachment.low l) : containsInterval interval l = true ↔
      ∃ a ∈ l, Overlap BusAttachment.low BusAttachment.high a ⟨device, interval⟩ := by
  induction l with
  | nil => simp [containsInterval]
  | cons cur rest ih =>
    obtain ⟨hcur, hrest⟩ := List.pairwise_cons.mp h
    rw [containsInterval]
    by_cases hlow : cur.range.low > interval.high
    · rw [if_pos hlow]
      refine iff_of_false Bool.false_ne_true ?_
      rintro ⟨a, ha, hover⟩
      have hle : cur.low ≤ a.low := (List.mem_cons.mp ha).elim (fun h => h ▸ le_rfl) (hcur a)
      exact absurd (hle.trans hover.2) (not_le.mpr hlow)
    · rw [if_neg hlow]
      by_cases hover : intervalsOverlap cur.range interval = true
      · rw [if_pos hover]
        exact iff_of_true rfl ⟨cur, List.mem_cons_self, intervalsOverlap_iff.mp hover⟩
      · have hcur : ¬ Overlap BusAttachment.low BusAttachment.high cur ⟨device, interval⟩ :=
          fun h => hover (intervalsOverlap_iff.mpr h)
        rw [if_neg hover, ih hrest, List.exists_mem_cons_iff]
        exact (or_iff_right hcur).symm

/-! ### The flags -/

theorem foldl_setAttachmentFlag {l : List ℕ} (hl : ∀ i ∈ l, i < 2 ^ 16) (memory : Word → Mem)
    (address : Word) :
    ((l.foldl setAttachmentFlag memory address).attachmentFlag = true ↔
      (memory address).attachmentFlag = true ∨ address.toNat ∈ l) ∧
    (l.foldl setAttachmentFlag memory address).value = (memory address).value := by
  induction l generalizing memory with
  | nil => simp
  | cons i l ih =>
    obtain ⟨hflag, hvalue⟩ := ih (fun j hj => hl j (List.mem_cons_of_mem i hj))
      (setAttachmentFlag memory i)
    rw [List.foldl_cons, hflag, hvalue, List.mem_cons]
    have hi : i < 2 ^ 16 := hl i List.mem_cons_self
    have htoNat : (BitVec.ofNat 16 i).toNat = i := Nat.mod_eq_of_lt hi
    rw [setAttachmentFlag]
    by_cases heq : address = BitVec.ofNat 16 i
    · rw [heq, Function.update_self, htoNat]
      simp
    · have hne : address.toNat ≠ i := fun h => heq (BitVec.eq_of_toNat_eq (h.trans htoNat.symm))
      rw [Function.update_of_ne heq]
      simp [hne]

/-- The loop sets the flags of the interval and changes no value. -/
theorem setAttachmentFlags_apply (memory : Word → Mem) (device : DevicePtr) (interval : Interval)
    (address : Word) :
    ((setAttachmentFlags memory interval address).attachmentFlag = true ↔
      (memory address).attachmentFlag = true ∨ Covers ⟨device, interval⟩ address) ∧
    (setAttachmentFlags memory interval address).value = (memory address).value := by
  have hbound : ∀ i ∈ List.range' interval.low.toNat
      (interval.high.toNat + 1 - interval.low.toNat), i < 2 ^ 16 := by
    intro i hi
    have := interval.high.isLt
    have := List.mem_range'_1.mp hi
    omega
  have hmem : address.toNat ∈ List.range' interval.low.toNat
      (interval.high.toNat + 1 - interval.low.toNat) ↔ Covers ⟨device, interval⟩ address := by
    rw [List.mem_range'_1]
    simp only [Covers, Contains, BusAttachment.low, BusAttachment.high]
    omega
  rw [← hmem]
  exact foldl_setAttachmentFlag hbound memory address

/-! ### One attachment -/

section Attach

variable {libc : SortSearch BusAttachment} {bus bus' : Bus} {device : DevicePtr}
  {interval : Interval}

/-- The list is sorted and the flags say which addresses it covers. This much holds on every bus,
whatever was attached. -/
structure MapInvariant (bus : Bus) : Prop where
  sorted : Sorted BusAttachment.low bus.attachments
  flag_iff : ∀ address, (bus.memory address).attachmentFlag = true ↔
    ∃ a ∈ bus.attachments, Covers a address

theorem mapInvariant_new : MapInvariant busNew := ⟨List.Pairwise.nil, by simp [busNew]⟩

/-- `bus'` is `bus` with one more attachment. -/
structure Extends (bus bus' : Bus) (a : BusAttachment) : Prop where
  perm : bus'.attachments.Perm (bus.attachments ++ [a])
  sorted : Sorted BusAttachment.low bus'.attachments
  flag_iff : ∀ address, (bus'.memory address).attachmentFlag = true ↔
    (bus.memory address).attachmentFlag = true ∨ Covers a address
  value_eq : ∀ address, (bus'.memory address).value = (bus.memory address).value

theorem Extends.mem_iff {a : BusAttachment} (h : Extends bus bus' a) {b : BusAttachment} :
    b ∈ bus'.attachments ↔ b ∈ bus.attachments ∨ b = a := by
  rw [h.perm.mem_iff, List.mem_append, List.mem_singleton]

theorem Extends.mapInvariant {a : BusAttachment} (h : Extends bus bus' a)
    (hbus : MapInvariant bus) : MapInvariant bus' := by
  refine ⟨h.sorted, fun address => ?_⟩
  rw [h.flag_iff, hbus.flag_iff]
  constructor
  · rintro (⟨b, hb, hcov⟩ | hcov)
    · exact ⟨b, h.mem_iff.mpr (Or.inl hb), hcov⟩
    · exact ⟨a, h.mem_iff.mpr (Or.inr rfl), hcov⟩
  · rintro ⟨b, hb, hcov⟩
    rcases h.mem_iff.mp hb with hb | rfl
    · exact Or.inl ⟨b, hb, hcov⟩
    · exact Or.inr hcov

/-- An interval that meets a recorded one is refused, and any other one is recorded. -/
theorem busAddAttachment_cases (libc : SortSearch BusAttachment) (bus : Bus) (device : DevicePtr)
    (interval : Interval) :
    (busContainsInterval bus interval = true ∧
      busAddAttachment libc bus device interval = (-1, bus)) ∨
    (busContainsInterval bus interval = false ∧
      ∃ bus', busAddAttachment libc bus device interval = (0, bus') ∧
        Extends bus bus' ⟨device, interval⟩) := by
  rw [busAddAttachment]
  cases hcontains : busContainsInterval bus interval with
  | true => exact Or.inl ⟨rfl, rfl⟩
  | false =>
    refine Or.inr ⟨rfl, _, rfl, libc.qsort_perm attachmentComparator_consistent _, ?_, ?_, ?_⟩
    · exact (libc.qsort_ordered attachmentComparator_consistent _).imp
        attachmentComparator_nonpos.mp
    · exact fun address => (setAttachmentFlags_apply bus.memory device interval address).1
    · exact fun address => (setAttachmentFlags_apply bus.memory device interval address).2

/-- The intervals that a device asks for. -/
def Device.Declares {ω : Type} (vtable : Device ω) (interval : Interval) : Prop :=
  match vtable.getAddressMethod with
  | .range => ∃ rest, vtable.getAddresses = interval.low :: interval.high :: rest
  | .seperate => ∃ address ∈ vtable.getAddresses, interval = ⟨address, address⟩

theorem addAttachments_induction {I : Bus → Prop} {addresses : List Word}
    (hI : ∀ bus, ∀ address ∈ addresses, I bus →
      I (busAddAttachment libc bus device ⟨address, address⟩).2) (hbus : I bus) :
    I (addAttachments libc bus device addresses).2 := by
  induction addresses generalizing bus with
  | nil => exact hbus
  | cons address rest ih =>
    have hstep := hI bus address List.mem_cons_self hbus
    rw [addAttachments]
    by_cases hfail : (busAddAttachment libc bus device ⟨address, address⟩).1 < 0
    · rwa [if_pos hfail]
    · rw [if_neg hfail]
      exact ih (fun bus a ha => hI bus a (List.mem_cons_of_mem address ha)) hstep

/-- A device with a range is attached at the one interval it declares. -/
theorem busAttach_range {ω : Type} {vtable : Device ω} {x : ℤ × Bus}
    (hmethod : vtable.getAddressMethod = .range)
    (h : busAttach libc vtable bus device = some x) :
    ∃ interval, vtable.Declares interval ∧ busAddAttachment libc bus device interval = x := by
  rw [busAttach, hmethod] at h
  cases haddr : vtable.getAddresses with
  | nil => simp [busAddAttachmentRange, haddr] at h
  | cons low rest =>
    cases rest with
    | nil => simp [busAddAttachmentRange, haddr] at h
    | cons high rest =>
      rw [haddr] at h
      refine ⟨⟨low, high⟩, ?_, Option.some.inj h⟩
      rw [Device.Declares, hmethod]
      exact ⟨rest, haddr⟩

theorem busAttach_seperate {ω : Type} {vtable : Device ω}
    (hmethod : vtable.getAddressMethod = .seperate) :
    busAttach libc vtable bus device =
      some (addAttachments libc bus device vtable.getAddresses) := by
  rw [busAttach, hmethod]
  rfl

/-- What one attachment of a declared interval keeps, attaching the device keeps. -/
theorem busAttach_induction {ω : Type} {vtable : Device ω} {I : Bus → Prop} {status : ℤ}
    (hI : ∀ bus interval, vtable.Declares interval → I bus →
      I (busAddAttachment libc bus device interval).2)
    (hbus : I bus) (h : busAttach libc vtable bus device = some (status, bus')) : I bus' := by
  cases hmethod : vtable.getAddressMethod with
  | range =>
    obtain ⟨interval, hdecl, hadd⟩ := busAttach_range hmethod h
    have hkept := hI bus interval hdecl hbus
    rwa [hadd] at hkept
  | seperate =>
    have hadd := Option.some.inj ((busAttach_seperate hmethod).symm.trans h)
    have hdecl : ∀ address ∈ vtable.getAddresses, vtable.Declares ⟨address, address⟩ := by
      intro address haddress
      rw [Device.Declares, hmethod]
      exact ⟨address, haddress, rfl⟩
    have hkept : I (addAttachments libc bus device vtable.getAddresses).2 :=
      addAttachments_induction (fun bus a ha => hI bus ⟨a, a⟩ (hdecl a ha)) hbus
    rwa [hadd] at hkept

theorem busAttach_mapInvariant {ω : Type} {vtable : Device ω} {status : ℤ}
    (hbus : MapInvariant bus) (h : busAttach libc vtable bus device = some (status, bus')) :
    MapInvariant bus' := by
  refine busAttach_induction (fun bus interval _ hbus => ?_) hbus h
  rcases busAddAttachment_cases libc bus device interval with
    ⟨-, heq⟩ | ⟨-, bus', heq, hext⟩ <;> rw [heq]
  · exact hbus
  · exact hext.mapInvariant hbus

/-- No attachment is ever lost. -/
theorem busAttach_mem {ω : Type} {vtable : Device ω} {status : ℤ}
    (h : busAttach libc vtable bus device = some (status, bus')) {a : BusAttachment}
    (ha : a ∈ bus.attachments) : a ∈ bus'.attachments := by
  refine busAttach_induction (I := fun bus => a ∈ bus.attachments)
    (fun bus interval _ ha => ?_) ha h
  rcases busAddAttachment_cases libc bus device interval with
    ⟨-, heq⟩ | ⟨-, bus', heq, hext⟩ <;> rw [heq]
  · exact ha
  · exact hext.mem_iff.mpr (Or.inl ha)

end Attach

/-! ### Proper ranges -/

/-- No interval that the device asks for has its ends the wrong way round. -/
def Device.ProperRanges {ω : Type} (vtable : Device ω) : Prop :=
  ∀ interval, vtable.Declares interval → interval.low ≤ interval.high

/-- The device declares a range with its ends in order, or any list of addresses. -/
def Device.WellDeclared {ω : Type} (vtable : Device ω) : Prop :=
  match vtable.getAddressMethod with
  | .range => ∃ low high rest, vtable.getAddresses = low :: high :: rest ∧ low ≤ high
  | .seperate => True

theorem Device.WellDeclared.properRanges {ω : Type} {vtable : Device ω}
    (h : vtable.WellDeclared) : vtable.ProperRanges := by
  intro interval hdecl
  rw [Device.WellDeclared] at h
  rw [Device.Declares] at hdecl
  cases hmethod : vtable.getAddressMethod with
  | range =>
    simp only [hmethod] at h hdecl
    obtain ⟨low, high, rest, haddr, hle⟩ := h
    obtain ⟨rest', haddr'⟩ := hdecl
    obtain ⟨rfl, rfl, -⟩ : low = interval.low ∧ high = interval.high ∧ rest = rest' := by
      simpa using haddr.symm.trans haddr'
    exact hle
  | seperate =>
    simp only [hmethod] at hdecl
    obtain ⟨address, -, rfl⟩ := hdecl
    exact BitVec.le_refl address

/-- The attachments are an interval table, and the flags are its points. -/
structure BusInvariant (bus : Bus) : Prop where
  separated : Separated BusAttachment.low BusAttachment.high bus.attachments
  flag_iff : ∀ address, (bus.memory address).attachmentFlag = true ↔
    ∃ a ∈ bus.attachments, Covers a address

theorem busInvariant_new : BusInvariant busNew := ⟨separated_nil, mapInvariant_new.flag_iff⟩

theorem BusInvariant.mapInvariant {bus : Bus} (h : BusInvariant bus) : MapInvariant bus :=
  ⟨h.separated.strict.imp le_of_lt, h.flag_iff⟩

section Proper

variable {libc : SortSearch BusAttachment} {bus bus' : Bus} {device : DevicePtr}
  {interval : Interval}

/-- One attachment of a proper interval keeps the invariant: it is refused, or it overlaps none of
the recorded ones. -/
theorem busAddAttachment_invariant (h : BusInvariant bus) (hle : interval.low ≤ interval.high) :
    BusInvariant (busAddAttachment libc bus device interval).2 := by
  rcases busAddAttachment_cases libc bus device interval with
    ⟨-, heq⟩ | ⟨hfree, bus', heq, hext⟩ <;> rw [heq]
  · exact h
  · refine ⟨?_, (hext.mapInvariant h.mapInvariant).flag_iff⟩
    refine separated_insert h.separated (e := ⟨device, interval⟩) hle (fun a ha hover => ?_)
      hext.perm hext.sorted
    have hcontains : busContainsInterval bus interval = true :=
      (containsInterval_iff device h.mapInvariant.sorted).mpr ⟨a, ha, hover⟩
    exact Bool.false_ne_true (hfree.symm.trans hcontains)

theorem busAttach_invariant {ω : Type} {vtable : Device ω} {status : ℤ} (h : BusInvariant bus)
    (hproper : vtable.ProperRanges)
    (hattach : busAttach libc vtable bus device = some (status, bus')) : BusInvariant bus' :=
  busAttach_induction (fun _ interval hdecl hbus =>
    busAddAttachment_invariant hbus (hproper interval hdecl)) h hattach

/-- A well declared device can always be tried. -/
theorem busAttach_isSome {ω : Type} {vtable : Device ω} (h : vtable.WellDeclared) :
    ∃ status bus', busAttach libc vtable bus device = some (status, bus') := by
  rw [busAttach]
  rw [Device.WellDeclared] at h
  cases hmethod : vtable.getAddressMethod with
  | range =>
    simp only [hmethod] at h
    obtain ⟨low, high, rest, haddr, -⟩ := h
    rw [haddr]
    exact ⟨_, _, rfl⟩
  | seperate => exact ⟨_, _, rfl⟩

/-- The search finds exactly the attachment that covers the address. -/
theorem BusInvariant.busSearch_iff (h : BusInvariant bus) {address : Word} {a : BusAttachment} :
    busSearch libc bus address = some a ↔ a ∈ bus.attachments ∧ Covers a address := by
  rw [busSearch, bsearchAttachmentComparator_eq]
  exact h.separated.bsearch_locate libc

end Proper

/-! ### Dispatch -/

section Dispatch

variable {ω ι : Type} {env : Env ω ι} {m : Machine ω ι} {address : Word} {a : BusAttachment}

/-- A read or write of the address is a read or write of a register of the device of `a`, and
changes no memory cell. -/
structure ReachesDevice (env : Env ω ι) (m : Machine ω ι) (address : Word) (a : BusAttachment) :
    Prop where
  read : busRead env m address =
    runCallback env a.device ((env.device a.device).readRegister address) m
  write : ∀ value, busWrite env m address value =
    (runCallback env a.device ((env.device a.device).writeRegister address value) m).map Prod.snd
  read_bus : ∀ value m', busRead env m address = some (value, m') → m'.bus = m.bus
  write_bus : ∀ value m', busWrite env m address value = some m' → m'.bus = m.bus

/-- A read or write of the address is a read or write of its memory cell, and reaches no device. -/
structure ReachesMemory (env : Env ω ι) (m : Machine ω ι) (address : Word) : Prop where
  read : busRead env m address = some ((m.bus.memory address).value, m)
  write : ∀ value,
    busWrite env m address value = some { m with bus := m.bus.setValue address value }

theorem reachesDevice_of_busSearch (hflag : (m.bus.memory address).attachmentFlag = true)
    (hsearch : busSearch env.libc m.bus address = some a) : ReachesDevice env m address a := by
  have hwrite : ∀ value, busWrite env m address value =
      (runCallback env a.device ((env.device a.device).writeRegister address value) m).map
        Prod.snd := by
    intro value
    rw [busWrite, if_pos hflag, hsearch, Option.map_eq_bind]
    rfl
  refine ⟨by rw [busRead, if_pos hflag, hsearch]; rfl, hwrite, ?_, ?_⟩
  · exact fun value m' hread => (busRead_eq_some hread).1
  · intro value m' h
    rw [(busWrite_eq_some h).1, if_pos hflag]

theorem reachesMemory_of_flag (hflag : (m.bus.memory address).attachmentFlag = false) :
    ReachesMemory env m address := by
  refine ⟨busRead_ordinary hflag, fun value => ?_⟩
  rw [busWrite, if_neg (by rw [hflag]; exact Bool.false_ne_true)]

/-- Attaching devices one after another, with the status of each attachment. -/
def attach (env : Env ω ι) (device : DevicePtr) (bus : Bus) : Option (ℤ × Bus) :=
  busAttach env.libc (env.device device) bus device

theorem run_attach_invariant {devices : List DevicePtr} {outs : List ℤ} {bus : Bus}
    (hproper : ∀ d ∈ devices, (env.device d).ProperRanges)
    (h : run (attach env) devices busNew = some (outs, bus)) : BusInvariant bus := by
  have halong : Along (attach env) (fun d _ => (env.device d).ProperRanges) devices busNew :=
    along_of_forall_mem hproper busNew
  exact run_invariant_of_along (fun d bus status bus' hd hbus hattach =>
    busAttach_invariant hbus hd hattach) halong busInvariant_new h

/-- **The address map and where it leads.** Attach any well declared devices to a new bus, each
succeeding or failing. Then the attachments are in strict order of their lower ends, no two of them
share an address, and an address is flagged exactly when some attachment covers it. A flagged
address is covered by exactly one attachment, the search finds it, and an access reaches its
device and no memory; at any other address an access reaches the memory cell and no device. -/
theorem busAttach_dispatch (env : Env ω ι) (devices : List DevicePtr)
    (hdecl : ∀ d ∈ devices, (env.device d).WellDeclared) :
    ∃ outs bus, run (attach env) devices busNew = some (outs, bus) ∧
      bus.attachments.Pairwise (fun a b => a.low < b.low) ∧
      bus.attachments.Pairwise (fun a b => ∀ p : Word, ¬ (Covers a p ∧ Covers b p)) ∧
      (∀ address, (bus.memory address).attachmentFlag = true ↔
        ∃ a ∈ bus.attachments, Covers a address) ∧
      (∀ address, (bus.memory address).attachmentFlag = true →
        ∃ a ∈ bus.attachments, Covers a address ∧
          (∀ b ∈ bus.attachments, Covers b address → b = a) ∧
          busSearch env.libc bus address = some a ∧
          ∀ m : Machine ω ι, m.bus = bus → ReachesDevice env m address a) ∧
      (∀ address, (bus.memory address).attachmentFlag = false →
        ∀ m : Machine ω ι, m.bus = bus → ReachesMemory env m address) := by
  obtain ⟨outs, bus, hrun⟩ : ∃ outs bus, run (attach env) devices busNew = some (outs, bus) :=
    run_isSome_of_mem fun d hd _ => busAttach_isSome (hdecl d hd)
  have hinv : BusInvariant bus := run_attach_invariant (fun d hd => (hdecl d hd).properRanges) hrun
  refine ⟨outs, bus, hrun, hinv.separated.strict, ?_, hinv.flag_iff, ?_, ?_⟩
  · exact hinv.separated.disjoint.imp fun hdisj (p : Word) => hdisj p.toNat
  · intro address hflag
    obtain ⟨a, ha, hcov⟩ := (hinv.flag_iff address).mp hflag
    have hsearch : busSearch env.libc bus address = some a := hinv.busSearch_iff.mpr ⟨ha, hcov⟩
    refine ⟨a, ha, hcov, fun b hb hcovb => hinv.separated.eq_of_contains hb ha hcovb hcov, hsearch,
      ?_⟩
    rintro m rfl
    exact reachesDevice_of_busSearch hflag hsearch
  · rintro address hflag m rfl
    exact reachesMemory_of_flag hflag

/-! ### Ranges the wrong way round -/

/-- Every interval that the device asks for has its ends in order or is refused by the bus. -/
def AttachProper (env : Env ω ι) (device : DevicePtr) (bus : Bus) : Prop :=
  ∀ interval, (env.device device).Declares interval →
    interval.low ≤ interval.high ∨ busContainsInterval bus interval = true

/-- A refused range leaves the bus as it is. -/
theorem busAttach_of_refused {libc : SortSearch BusAttachment} {vtable : Device ω} {bus bus' : Bus}
    {device : DevicePtr} {interval : Interval} {status : ℤ} (hdecl : vtable.Declares interval)
    (hwrong : ¬ interval.low ≤ interval.high) (hrefused : busContainsInterval bus interval = true)
    (h : busAttach libc vtable bus device = some (status, bus')) : bus' = bus := by
  rw [Device.Declares] at hdecl
  rw [busAttach] at h
  cases hmethod : vtable.getAddressMethod with
  | range =>
    simp only [hmethod] at hdecl h
    obtain ⟨rest, haddr⟩ := hdecl
    rw [haddr] at h
    have hadd : busAddAttachment libc bus device interval = (status, bus') := Option.some.inj h
    rw [busAddAttachment, if_pos hrefused] at hadd
    exact (Prod.mk.inj hadd).2.symm
  | seperate =>
    simp only [hmethod] at hdecl
    obtain ⟨address, -, rfl⟩ := hdecl
    exact absurd (BitVec.le_refl address) hwrong

theorem attach_invariant {d : DevicePtr} {bus bus' : Bus} {status : ℤ} (hbus : BusInvariant bus)
    (hd : AttachProper env d bus) (h : attach env d bus = some (status, bus')) :
    BusInvariant bus' := by
  by_cases hproper : (env.device d).ProperRanges
  · exact busAttach_invariant hbus hproper h
  · obtain ⟨interval, hdecl, hwrong⟩ : ∃ interval, (env.device d).Declares interval ∧
        ¬ interval.low ≤ interval.high := by
      simpa [Device.ProperRanges] using hproper
    have hrefused := (hd interval hdecl).resolve_left hwrong
    rw [busAttach_of_refused hdecl hwrong hrefused h]
    exact hbus

/-- **Attaching a device leaves every address where it led.** This holds over any run of attachments
in which every range either has its ends in order or is refused: an address that led to a device
before an attachment still leads to it after the attachment, successful or not. -/
theorem busAttach_keeps_dispatch (env : Env ω ι) {devices : List DevicePtr} {outs : List ℤ}
    {bus bus' : Bus} {d : DevicePtr} {status : ℤ}
    (hrun : run (attach env) devices busNew = some (outs, bus))
    (halong : Along (attach env) (AttachProper env) devices busNew)
    (hattach : attach env d bus = some (status, bus')) (hd : AttachProper env d bus)
    (hsearch : busSearch env.libc bus address = some a) :
    (bus'.memory address).attachmentFlag = true ∧ busSearch env.libc bus' address = some a ∧
      ∀ m : Machine ω ι, m.bus = bus' → ReachesDevice env m address a := by
  have hbus : BusInvariant bus := run_invariant_of_along
    (fun d bus status bus' hd hbus hattach => attach_invariant hbus hd hattach) halong
    busInvariant_new hrun
  have hbus' : BusInvariant bus' := attach_invariant hbus hd hattach
  obtain ⟨ha, hcov⟩ := hbus.busSearch_iff.mp hsearch
  have ha' : a ∈ bus'.attachments := busAttach_mem hattach ha
  have hflag' : (bus'.memory address).attachmentFlag = true :=
    (hbus'.flag_iff address).mpr ⟨a, ha', hcov⟩
  have hsearch' : busSearch env.libc bus' address = some a := hbus'.busSearch_iff.mpr ⟨ha', hcov⟩
  refine ⟨hflag', hsearch', ?_⟩
  rintro m rfl
  exact reachesDevice_of_busSearch hflag' hsearch'

end Dispatch

/-- Device 0 declares the range from 2 to 3, device 1 the range from 4 to 5, and any other device
the range from 3 to 1. -/
def rangeEnv : Env Unit Unit where
  libc := SortSearch.bisecting _
  device d :=
    { inertDevice with
      getAddresses := if d = 0 then [2, 3] else if d = 1 then [4, 5] else [3, 1]
      getAddressMethod := .range }
  deviceIo := silentIo

/-- Attach device 0 twice; the second time it is refused. -/
theorem busAttach_dispatch_range :
    ∃ outs bus, run (attach rangeEnv) [0, 0] busNew = some (outs, bus) ∧
      ∀ address, (bus.memory address).attachmentFlag = true ↔
        ∃ a ∈ bus.attachments, Covers a address := by
  obtain ⟨outs, bus, hrun, -, -, hflag, -, -⟩ := busAttach_dispatch rangeEnv [0, 0] (by
    intro d hd
    obtain rfl : d = 0 := by simpa using hd
    exact ⟨2, 3, [], rfl, by decide⟩)
  exact ⟨outs, bus, hrun, hflag⟩

/-- Behind the attachment of device 0, device 1 takes two more addresses, and address 3 still leads
to device 0. -/
theorem busAttach_keeps_dispatch_range :
    ∃ x y, attach rangeEnv 0 busNew = some x ∧ attach rangeEnv 1 x.2 = some y ∧
      busSearch rangeEnv.libc y.2 3 = some ⟨0, ⟨2, 3⟩⟩ := by
  have hproper : ∀ d, d = 0 ∨ d = 1 → ∀ bus, AttachProper rangeEnv d bus := by
    rintro d hd bus interval ⟨rest, haddr⟩
    left
    rcases hd with rfl | rfl <;>
    · obtain ⟨hlow, hhigh, -⟩ : _ ∧ _ ∧ _ := by simpa [rangeEnv] using haddr
      rw [← hlow, ← hhigh]
      decide
  refine ⟨_, _, rfl, rfl, ?_⟩
  exact (busAttach_keeps_dispatch rangeEnv
    (show run (attach rangeEnv) [0] busNew = some ([0], _) from rfl)
    ⟨hproper 0 (by decide) _, fun _ _ _ => trivial⟩
    (show attach rangeEnv 1 _ = some (0, _) from rfl) (hproper 1 (by decide) _) (by decide)).2.1

/-- Attach the range from 3 to 1 instead. It is accepted, it is sorted in behind the range from 2
to 3, and a search for address 3 meets it first and goes the wrong way: a read then follows a
missing attachment. -/
theorem busAttach_breaks_dispatch :
    ∃ x y, attach rangeEnv 0 busNew = some x ∧ attach rangeEnv 2 x.2 = some y ∧ y.1 = 0 ∧
      (x.2.memory 3).attachmentFlag = true ∧
      busSearch rangeEnv.libc x.2 3 = some ⟨0, ⟨2, 3⟩⟩ ∧
      busSearch rangeEnv.libc y.2 3 = none ∧
      ∀ m : Machine Unit Unit, m.bus = y.2 → busRead rangeEnv m 3 = none := by
  refine ⟨_, _, rfl, rfl, by decide, by decide, by decide, by decide, ?_⟩
  rintro m hbus
  have hflag : (m.bus.memory 3).attachmentFlag = true := hbus ▸ by decide
  have hsearch : busSearch rangeEnv.libc m.bus 3 = none := hbus ▸ by decide
  rw [busRead, if_pos hflag, hsearch]
  rfl

end Lc3Simulator
