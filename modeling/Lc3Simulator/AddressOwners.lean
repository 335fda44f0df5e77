import Lc3Simulator.AttachFailure

/-!
# Address maps of single addresses

A device with separate addresses is attached at single addresses only. A bus with such devices says
no more than who owns each address, and attaching a device whose addresses are free gives them to
it. The order of the attachments, and how the C library sorts them, leave no trace.

## Main definitions

* `Owned` — the bus says exactly who owns each address
* `withOwner` — giving some addresses to a device

## Main results

* `Owned.addAttachments` — attaching a device with free addresses
* `Owned.reachesDevice`, `Owned.reachesMemory` — where an access leads
-/

namespace Lc3Simulator

/-- The attachments are the owned addresses, each by itself, and they can be searched. -/
structure Owned (owner : Word → Option DevicePtr) (bus : Bus) : Prop where
  invariant : BusInvariant bus
  mem_iff : ∀ a, a ∈ bus.attachments ↔
    a.range.low = a.range.high ∧ owner a.range.low = some a.device

/-- The addresses go to the device, and the others stay with their owners. -/
def withOwner (owner : Word → Option DevicePtr) (device : DevicePtr) (addresses : List Word) :
    Word → Option DevicePtr :=
  fun address => if address ∈ addresses then some device else owner address

@[simp] theorem withOwner_nil (owner : Word → Option DevicePtr) (device : DevicePtr) :
    withOwner owner device [] = owner := by
  funext address
  simp [withOwner]

theorem owned_new : Owned (fun _ => none) busNew := ⟨busInvariant_new, by simp [busNew]⟩

section

variable {owner : Word → Option DevicePtr} {bus : Bus} {device : DevicePtr} {address : Word}
  {libc : SortSearch BusAttachment}

/-- An address is flagged exactly when it has an owner. -/
theorem Owned.flag_eq (h : Owned owner bus) (address : Word) :
    (bus.memory address).attachmentFlag = (owner address).isSome := by
  rw [Bool.eq_iff_iff, h.invariant.flag_iff, Option.isSome_iff_exists]
  constructor
  · rintro ⟨⟨d, ⟨low, high⟩⟩, ha, hcov⟩
    obtain ⟨hpoint, howner⟩ := (h.mem_iff _).mp ha
    obtain rfl : low = high := hpoint
    obtain rfl := covers_point.mp hcov
    exact ⟨d, howner⟩
  · rintro ⟨d, howner⟩
    exact ⟨⟨d, ⟨address, address⟩⟩, (h.mem_iff _).mpr ⟨rfl, howner⟩, covers_point.mpr rfl⟩

/-- The search finds the owner. -/
theorem Owned.busSearch (h : Owned owner bus) (howner : owner address = some device) :
    busSearch libc bus address = some ⟨device, ⟨address, address⟩⟩ :=
  h.invariant.busSearch_iff.mpr ⟨(h.mem_iff _).mpr ⟨rfl, howner⟩, covers_point.mpr rfl⟩

/-- Attaching a device at one free address. -/
theorem Owned.addAttachment (libc : SortSearch BusAttachment) (device : DevicePtr)
    (h : Owned owner bus) (hfree : owner address = none) :
    ∃ bus', busAddAttachment libc bus device ⟨address, address⟩ = (0, bus') ∧
      Owned (withOwner owner device [address]) bus' ∧
      ∀ a, (bus'.memory a).value = (bus.memory a).value := by
  have hflag : (bus.memory address).attachmentFlag = false := by rw [h.flag_eq, hfree]; rfl
  rcases busAddAttachment_point libc device address h.invariant.mapInvariant with
    ⟨htaken, -⟩ | ⟨-, bus', heq, hext⟩
  · exact absurd (hflag.symm.trans htaken) Bool.false_ne_true
  · have hinv : BusInvariant (busAddAttachment libc bus device ⟨address, address⟩).2 :=
      busAddAttachment_invariant h.invariant (BitVec.le_refl address)
    rw [heq] at hinv
    refine ⟨bus', heq, ⟨hinv, fun a => ?_⟩, hext.value_eq⟩
    rw [hext.mem_iff, h.mem_iff]
    obtain ⟨d, ⟨low, high⟩⟩ := a
    simp only [withOwner, List.mem_singleton]
    by_cases hlow : low = address
    · subst hlow
      simp [hfree, eq_comm]
      tauto
    · simp [hlow]

/-- **Attaching a device at free addresses** gives them to it. -/
theorem Owned.addAttachments (libc : SortSearch BusAttachment) (device : DevicePtr)
    {addresses : List Word} (h : Owned owner bus)
    (hfree : ∀ a ∈ addresses, owner a = none) (hnodup : addresses.Nodup) :
    ∃ bus', addAttachments libc bus device addresses = (0, bus') ∧
      Owned (withOwner owner device addresses) bus' ∧
      ∀ a, (bus'.memory a).value = (bus.memory a).value := by
  induction addresses generalizing owner bus with
  | nil => exact ⟨bus, rfl, by rwa [withOwner_nil], fun _ => rfl⟩
  | cons address rest ih =>
    obtain ⟨hnotMem, hrest⟩ := List.nodup_cons.mp hnodup
    obtain ⟨bus₁, heq, h₁, hvalue₁⟩ :=
      h.addAttachment libc device (hfree address List.mem_cons_self)
    have hfree₁ : ∀ a ∈ rest, withOwner owner device [address] a = none := by
      intro a ha
      have hne : a ≠ address := fun hEq => hnotMem (hEq ▸ ha)
      simpa [withOwner, hne] using hfree a (List.mem_cons_of_mem address ha)
    obtain ⟨bus', hadd, h', hvalue'⟩ := ih h₁ hfree₁ hrest
    refine ⟨bus', ?_, ?_, fun a => (hvalue' a).trans (hvalue₁ a)⟩
    · rw [Lc3Simulator.addAttachments, heq, if_neg (lt_irrefl (0 : ℤ))]
      exact hadd
    · have howner : withOwner (withOwner owner device [address]) device rest =
          withOwner owner device (address :: rest) := by
        funext a
        by_cases ha : a = address <;> by_cases hr : a ∈ rest <;> simp [withOwner, ha, hr]
      exact howner ▸ h'

/-- Attaching a device with separate, free addresses to the bus. -/
theorem Owned.busAttach {ω : Type} {vtable : Device ω} (libc : SortSearch BusAttachment)
    (device : DevicePtr) (h : Owned owner bus)
    (hmethod : vtable.getAddressMethod = .seperate)
    (hfree : ∀ a ∈ vtable.getAddresses, owner a = none) (hnodup : vtable.getAddresses.Nodup) :
    ∃ bus', busAttach libc vtable bus device = some (0, bus') ∧
      Owned (withOwner owner device vtable.getAddresses) bus' ∧
      ∀ a, (bus'.memory a).value = (bus.memory a).value := by
  obtain ⟨bus', hadd, h', hvalue⟩ :=
    h.addAttachments libc device hfree hnodup
  exact ⟨bus', (busAttach_seperate hmethod).trans (congrArg some hadd), h', hvalue⟩

theorem Owned.setValue (h : Owned owner bus) (address value : Word) :
    Owned owner (bus.setValue address value) := by
  refine ⟨⟨h.invariant.separated, fun a => ?_⟩, h.mem_iff⟩
  rw [Bus.setValue_attachmentFlag]
  exact h.invariant.flag_iff a

variable {ω ι : Type} {env : Env ω ι} {m : Machine ω ι}

/-- An access to an owned address reaches the owner. -/
theorem Owned.reachesDevice (h : Owned owner m.bus) (howner : owner address = some device) :
    ReachesDevice env m address ⟨device, ⟨address, address⟩⟩ := by
  have hflag : (m.bus.memory address).attachmentFlag = true := by rw [h.flag_eq, howner]; rfl
  exact reachesDevice_of_busSearch hflag (h.busSearch howner)

/-- An access to any other address reaches its memory cell. -/
theorem Owned.reachesMemory (h : Owned owner m.bus) (howner : owner address = none) :
    ReachesMemory env m address :=
  reachesMemory_of_flag (by rw [h.flag_eq, howner]; rfl)

end

end Lc3Simulator
