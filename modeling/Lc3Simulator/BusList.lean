import Lc3Simulator.AddressMap
import Lc3Simulator.ListCapacity

/-!
# The address map in its list

In `bus.c` the attachments are in a list of `list.c`: a block of memory that is asked for anew when
it is full, in which the attachments are sorted in place, and which is read by index and searched.
Here are the functions of `bus.c` once more, with that list, and they are compared with those of
`Bus`, whose attachments are a sequence.

As long as there is memory, the two do the same, whatever addresses the devices ask for. The bound
on the number of attachments is that of the `int` that counts them in `bus_contains_interval`.

## Main definitions

* `BusImpl` — `struct bus_impl`
* `busImplAttach`, `busImplSearch` — the functions of the source
* `BusImpl.Shows` — the list has the attachments of the sequence

## Main results

* `busImplContainsInterval_eq` — the loop over the attachments
* `BusImpl.Shows.addAttachment` — recording one interval
* `busImpl_refines` — any devices, one after another
-/

namespace Lc3Simulator

open Transition

/-! ### The source -/

/-- `struct bus_impl`. -/
structure BusImpl where
  attachments : CList BusAttachment
  memory : Word → Mem

/-- `bus_new`. -/
def busImplNew (al : ListAllocator) : Option BusImpl :=
  (ListClient.busAttachments.newList al).map fun attachments => ⟨attachments, fun _ => ⟨0, false⟩⟩

/-- A number of type `size_t` that is assigned to an `int`. -/
def intOfSize (n : ℕ) : ℤ := (BitVec.ofNat 32 n).toInt

/-- The loop of `bus_contains_interval`, from the attachment at `i` on. -/
def containsFrom (attachments : CList BusAttachment) (interval : Interval) : ℕ → ℕ → Option Bool
  | 0, _ => some false
  | rounds + 1, i => do
    let cur ← (attachments.get i).join
    if cur.range.low > interval.high then some false
    else if intervalsOverlap cur.range interval then some true
    else containsFrom attachments interval rounds (i + 1)

/-- `bus_contains_interval`. -/
def busImplContainsInterval (bus : BusImpl) (interval : Interval) : Option Bool :=
  containsFrom bus.attachments interval (intOfSize bus.attachments.numElements).toNat 0

section

variable (al : ListAllocator) (libc : SortSearch BusAttachment)

/-- `bus_add_attachment`. If there is no memory for the list, `safe_realloc` aborts. -/
def busImplAddAttachment (bus : BusImpl) (device : DevicePtr) (interval : Interval) :
    Option (ℤ × BusImpl) := do
  let contained ← busImplContainsInterval bus interval
  if contained then some (-1, bus)
  else do
    let (status, attachments) ← bus.attachments.add al ⟨device, interval⟩
    if status < 0 then none
    else do
      let attachments ← attachments.sort libc attachmentComparator
      some (0, { attachments, memory := setAttachmentFlags bus.memory interval })

/-- The loop of `bus_add_attachment_seperate`. -/
def addAttachmentsImpl (bus : BusImpl) (device : DevicePtr) : List Word → Option (ℤ × BusImpl)
  | [] => some (0, bus)
  | address :: rest => do
    let (status, bus) ← busImplAddAttachment al libc bus device ⟨address, address⟩
    if status < 0 then some (-1, bus) else addAttachmentsImpl bus device rest

/-- `bus_add_attachment_range`. -/
def busImplAddAttachmentRange (bus : BusImpl) (device : DevicePtr) (addresses : List Word) :
    Option (ℤ × BusImpl) :=
  match addresses with
  | low :: high :: _ => busImplAddAttachment al libc bus device ⟨low, high⟩
  | _ => none

/-- `bus_attach`. -/
def busImplAttach {ω : Type} (vtable : Device ω) (bus : BusImpl) (device : DevicePtr) :
    Option (ℤ × BusImpl) :=
  match vtable.getAddressMethod with
  | .range => busImplAddAttachmentRange al libc bus device vtable.getAddresses
  | .seperate => addAttachmentsImpl al libc bus device vtable.getAddresses

/-- `bus_search`: a null pointer, or the attachment that the pointer leads to. -/
def busImplSearch (bus : BusImpl) (address : Word) : Option (Option BusAttachment) :=
  bus.attachments.bsearch libc (bsearchAttachmentComparator address)

end

/-! ### One operation -/

/-- The list has the attachments of the sequence, and is one that the bus has made. -/
structure BusImpl.Shows (impl : BusImpl) (bus : Bus) : Prop where
  sized : Sized ListClient.busAttachments.initCapacity impl.attachments bus.attachments
  doubles : impl.attachments.expandMult = 2
  dataSize : impl.attachments.dataSize = 16
  memory : impl.memory = bus.memory

/-- How many intervals are recorded for a device, at most. -/
def Device.numIntervals {ω : Type} (vtable : Device ω) : ℕ :=
  match vtable.getAddressMethod with
  | .range => 1
  | .seperate => vtable.getAddresses.length

/-- The number of attachments that an `int` can count. -/
def intMax : ℕ := 2 ^ 31 - 1

theorem intOfSize_eq {n : ℕ} (h : n ≤ intMax) : intOfSize n = n := by
  have hlt : n < 2 ^ 31 := by
    rw [intMax] at h
    omega
  have htoNat : (BitVec.ofNat 32 n).toNat = n := by
    rw [BitVec.toNat_ofNat, Nat.mod_eq_of_lt (by omega)]
  rw [intOfSize, BitVec.toInt_eq_toNat_of_lt (by omega), htoNat]

/-- **The loop** goes over the attachments. -/
theorem containsFrom_eq {attachments : CList BusAttachment} {xs : List BusAttachment}
    (h : attachments.Represents xs) (interval : Interval) {rounds i : ℕ}
    (hi : i + rounds = xs.length) :
    containsFrom attachments interval rounds i =
      some (containsInterval interval (xs.drop i)) := by
  induction rounds generalizing i with
  | zero =>
    rw [List.drop_of_length_le (by omega)]
    rfl
  | succ rounds ih =>
    have hlt : i < xs.length := by omega
    have hget : (attachments.get i).join = some xs[i] := by
      rw [CList.get_eq h, List.getElem?_eq_getElem hlt]
      rfl
    rw [List.drop_eq_getElem_cons hlt, containsFrom, hget, Option.bind_eq_bind, Option.bind_some,
      containsInterval]
    split_ifs
    · rfl
    · rfl
    · exact ih (by omega)

section Operations

variable {al : ListAllocator} {libc : SortSearch BusAttachment} {impl : BusImpl} {bus : Bus}
  {device : DevicePtr} {interval : Interval}

theorem busImplContainsInterval_eq (h : impl.Shows bus)
    (hcount : bus.attachments.length ≤ intMax) :
    busImplContainsInterval impl interval = some (busContainsInterval bus interval) := by
  have hnum := h.sized.represents.numElements
  rw [busImplContainsInterval, hnum, intOfSize_eq hcount, Int.toNat_natCast,
    containsFrom_eq h.sized.represents interval (Nat.zero_add _), List.drop_zero,
    busContainsInterval]

theorem CList.add_dataSize {α : Type} {list list' : CList α} {x : α} {status : ℤ}
    (h : list.add al x = some (status, list')) : list'.dataSize = list.dataSize := by
  have hstore {list list' : CList α} {status : ℤ} (h : list.store x = some (status, list')) :
      list'.dataSize = list.dataSize := by
    obtain ⟨data, -, h⟩ := Option.map_eq_some_iff.mp h
    obtain ⟨-, rfl⟩ := Prod.mk.inj h
    rfl
  rw [CList.add] at h
  split_ifs at h with hfull
  · obtain ⟨⟨granted, grown⟩, hresize, h⟩ := Option.bind_eq_some_iff.mp h
    have hgrown : grown.dataSize = list.dataSize := by
      simp only [CList.resize] at hresize
      split_ifs at hresize
      · obtain ⟨-, rfl⟩ := Prod.mk.inj (Option.some.inj hresize)
        rfl
      · obtain ⟨-, rfl⟩ := Prod.mk.inj (Option.some.inj hresize)
        rfl
    dsimp only at h
    split_ifs at h
    · obtain ⟨-, rfl⟩ := Prod.mk.inj (Option.some.inj h)
      exact hgrown
    · exact (hstore h).trans hgrown
  · exact hstore h

/-- A list of attachments that an `int` can count is small enough to grow. -/
theorem BusImpl.Shows.reallocSucceeds (h : impl.Shows bus)
    (hgrants : ∀ size, size < 2 ^ 63 → al.grants size = true)
    (hcount : bus.attachments.length ≤ intMax) : impl.attachments.ReallocSucceeds al := by
  intro hfull
  have hcapacity : impl.attachments.capacity ≤ intMax := by
    rw [← hfull, h.sized.represents.numElements]
    exact hcount
  rw [intMax] at hcapacity
  have hsize : sizeMul (impl.attachments.capacity * 2) 16 = impl.attachments.capacity * 2 * 16 :=
    Nat.mod_eq_of_lt (by omega)
  rw [CList.resize, h.doubles, h.dataSize, hsize, if_pos (by omega),
    if_pos (hgrants _ (by omega))]
  exact ⟨_, rfl⟩

variable (libc) in
/-- **Recording one interval.** -/
theorem BusImpl.Shows.addAttachment (h : impl.Shows bus)
    (hgrants : ∀ size, size < 2 ^ 63 → al.grants size = true)
    (hcount : bus.attachments.length ≤ intMax) (device : DevicePtr) (interval : Interval) :
    ∃ impl', busImplAddAttachment al libc impl device interval =
        some ((busAddAttachment libc bus device interval).1, impl') ∧
      impl'.Shows (busAddAttachment libc bus device interval).2 ∧
      (busAddAttachment libc bus device interval).2.attachments.length ≤
        bus.attachments.length + 1 := by
  rw [busImplAddAttachment, busImplContainsInterval_eq h hcount, busAddAttachment]
  cases busContainsInterval bus interval with
  | true => exact ⟨impl, rfl, h, Nat.le_succ _⟩
  | false =>
    have hrealloc : ReallocSucceeds al (.add ⟨device, interval⟩)
        (impl.attachments, bus.attachments) := fun _ _ => h.reallocSucceeds hgrants hcount
    obtain ⟨added, hadd, hadded, hmult, hcap⟩ := CList.add_represents h.sized.represents
      h.sized.capacity_pos (hrealloc _ rfl) (Or.inl h.doubles) ⟨device, interval⟩
    obtain ⟨status, added', hadd', hsized, -⟩ :=
      listStep_represents h.sized hrealloc (Or.inl h.doubles)
    obtain ⟨-, rfl⟩ := Prod.mk.inj (Option.some.inj
      (hadd.symm.trans (show impl.attachments.add al _ = some (status, added') from hadd')))
    obtain ⟨sorted, hsort, hsorted, hcap', hmult', hdata⟩ :=
      CList.sort_represents hadded libc attachmentComparator_consistent
    refine ⟨⟨sorted, setAttachmentFlags impl.memory interval⟩, ?_, ?_, ?_⟩
    · simp [hadd, hsort]
    · have hmemory : setAttachmentFlags impl.memory interval =
          setAttachmentFlags bus.memory interval := by rw [h.memory]
      refine ⟨⟨hsorted, hsized.init_pos, ?_⟩, hmult'.trans (hmult.trans h.doubles),
        hdata.trans ((CList.add_dataSize hadd).trans h.dataSize), hmemory⟩
      rw [hcap', hmult']
      exact hsized.capacity
    · have hperm := libc.qsort_perm attachmentComparator_consistent
        (bus.attachments ++ [⟨device, interval⟩])
      have hlength := hperm.length_eq
      rw [List.length_append, List.length_singleton] at hlength
      exact hlength.le

variable (libc) in
/-- The addresses of a device, one after another. -/
theorem BusImpl.Shows.addAttachments (h : impl.Shows bus)
    (hgrants : ∀ size, size < 2 ^ 63 → al.grants size = true) {addresses : List Word}
    (hcount : bus.attachments.length + addresses.length ≤ intMax) (device : DevicePtr) :
    ∃ impl', addAttachmentsImpl al libc impl device addresses =
        some ((addAttachments libc bus device addresses).1, impl') ∧
      impl'.Shows (addAttachments libc bus device addresses).2 ∧
      (addAttachments libc bus device addresses).2.attachments.length ≤
        bus.attachments.length + addresses.length := by
  induction addresses generalizing impl bus with
  | nil => exact ⟨impl, rfl, h, le_rfl⟩
  | cons address rest ih =>
    rw [List.length_cons] at hcount
    obtain ⟨impl₁, hadd, h₁, hlength⟩ :=
      h.addAttachment libc hgrants (by omega) device ⟨address, address⟩
    rw [addAttachmentsImpl, hadd, Option.bind_eq_bind, Option.bind_some,
      Lc3Simulator.addAttachments, List.length_cons]
    dsimp only
    split_ifs
    · exact ⟨impl₁, rfl, h₁, hlength.trans (by omega)⟩
    · obtain ⟨impl', hrest, h', hlength'⟩ := ih h₁ (by omega)
      exact ⟨impl', hrest, h', by omega⟩

/-- **Attaching a device.** -/
theorem BusImpl.Shows.attach {ω : Type} {vtable : Device ω} (h : impl.Shows bus)
    (hgrants : ∀ size, size < 2 ^ 63 → al.grants size = true)
    (hcount : bus.attachments.length + vtable.numIntervals ≤ intMax) (device : DevicePtr) :
    AgreeUpTo (fun impl' bus' => impl'.Shows bus' ∧
        bus'.attachments.length ≤ bus.attachments.length + vtable.numIntervals)
      (busImplAttach al libc vtable impl device) (busAttach libc vtable bus device) := by
  rw [busImplAttach, busAttach]
  rw [Device.numIntervals] at hcount ⊢
  cases hmethod : vtable.getAddressMethod with
  | range =>
    rw [hmethod] at hcount
    dsimp only at hcount ⊢
    rcases vtable.getAddresses with _ | ⟨low, _ | ⟨high, rest⟩⟩
    · exact Option.Rel.none
    · exact Option.Rel.none
    · obtain ⟨impl', hadd, h', hlength⟩ :=
        h.addAttachment libc hgrants (by omega) device ⟨low, high⟩
      rw [busImplAddAttachmentRange, hadd]
      exact Option.Rel.some ⟨rfl, h', hlength⟩
  | seperate =>
    rw [hmethod] at hcount
    obtain ⟨impl', hadd, h', hlength⟩ :=
      h.addAttachments libc hgrants hcount device
    dsimp only
    rw [hadd]
    exact Option.Rel.some ⟨rfl, h', hlength⟩

/-- Searching. -/
theorem BusImpl.Shows.search (h : impl.Shows bus) (address : Word) :
    busImplSearch libc impl address = some (busSearch libc bus address) :=
  CList.bsearch_eq h.sized.represents libc _

theorem busImplNew_shows (hnew : busImplNew al = some impl) : impl.Shows busNew := by
  obtain ⟨attachments, hlist, rfl⟩ := Option.map_eq_some_iff.mp hnew
  obtain ⟨hsized, hmult⟩ := ListClient.newList_sized hlist
  refine ⟨hsized, hmult, ?_, rfl⟩
  rw [ListClient.newList, CList.new] at hlist
  split_ifs at hlist
  obtain rfl := Option.some.inj hlist
  rfl

end Operations

/-! ### Any devices -/

section Runs

variable {ω ι : Type} (al : ListAllocator) (env : Env ω ι)

/-- Attaching devices one after another, with the status of each attachment. -/
def attachImpl (device : DevicePtr) (impl : BusImpl) : Option (ℤ × BusImpl) :=
  busImplAttach al env.libc (env.device device) impl device

/-- The number of intervals that some devices ask for. -/
def declaredIntervals (devices : List DevicePtr) : ℕ :=
  (devices.map fun device => (env.device device).numIntervals).sum

variable {al env}

theorem BusImpl.Shows.run (hgrants : ∀ size, size < 2 ^ 63 → al.grants size = true)
    {devices : List DevicePtr} {impl : BusImpl} {bus : Bus} (h : impl.Shows bus)
    (hcount : bus.attachments.length + declaredIntervals env devices ≤ intMax) :
    AgreeUpTo BusImpl.Shows (Transition.run (attachImpl al env) devices impl)
      (Transition.run (Lc3Simulator.attach env) devices bus) := by
  induction devices generalizing impl bus with
  | nil => exact Option.Rel.some ⟨rfl, h⟩
  | cons device rest ih =>
    rw [declaredIntervals, List.map_cons, List.sum_cons, ← declaredIntervals] at hcount
    refine agree_bind (h.attach hgrants (by omega) device) fun status impl₁ bus₁ ⟨h₁, hlength⟩ => ?_
    have hrest : bus₁.attachments.length + declaredIntervals env rest ≤ intMax := by omega
    exact rel_map (ih h₁ hrest) fun x y hxy => ⟨congrArg (status :: ·) hxy.1, hxy.2⟩

/-- **The list of attachments is the sequence of them.** Attach any devices to a new bus, whatever
addresses they ask for, as long as an `int` can count them. The bus with its list comes back where
the one with a sequence does, with the same status for each device. Then the list has the elements
of the sequence, every search finds the same attachment, and the same addresses are flagged. -/
theorem busImpl_refines (hgrants : ∀ size, size < 2 ^ 63 → al.grants size = true)
    {devices : List DevicePtr} {impl : BusImpl} (hnew : busImplNew al = some impl)
    (hcount : declaredIntervals env devices ≤ intMax) :
    AgreeUpTo
      (fun impl' bus => impl'.attachments.Represents bus.attachments ∧
        (∀ address, busImplSearch env.libc impl' address = some (busSearch env.libc bus address)) ∧
        ∀ address, impl'.memory address = bus.memory address)
      (run (attachImpl al env) devices impl) (run (attach env) devices busNew) := by
  have hempty : busNew.attachments.length + declaredIntervals env devices ≤ intMax := by
    rw [busNew, List.length_nil, Nat.zero_add]
    exact hcount
  exact agree_mono ((busImplNew_shows hnew).run hgrants hempty) fun impl' bus h =>
    ⟨h.sized.represents, h.search, congrFun h.memory⟩

end Runs

/-- Each device has six registers, and shares one with the next device. -/
def crowdedEnv : Env Unit Unit where
  libc := SortSearch.bisecting _
  device d := { inertDevice with
    getAddresses := (List.range 6).map fun i => BitVec.ofNat 16 (0xFE00 + 5 * d + i) }
  deviceIo := silentIo

theorem busImpl_refines_crowded : ∃ impl, busImplNew largeAllocator = some impl ∧
    AgreeUpTo
      (fun impl' bus => impl'.attachments.Represents bus.attachments ∧
        (∀ address, busImplSearch crowdedEnv.libc impl' address =
          some (busSearch crowdedEnv.libc bus address)) ∧
        ∀ address, impl'.memory address = bus.memory address)
      (run (attachImpl largeAllocator crowdedEnv) [1, 0, 2] impl)
      (run (attach crowdedEnv) [1, 0, 2] busNew) ∧
    (run (attachImpl largeAllocator crowdedEnv) [1, 0, 2] impl).map
      (fun x => (x.1, x.2.attachments.numElements, x.2.attachments.capacity)) =
        some ([0, -1, -1], 11, 20) := by
  obtain ⟨impl, hnew⟩ : ∃ impl, busImplNew largeAllocator = some impl := ⟨_, rfl⟩
  refine ⟨impl, hnew, busImpl_refines (fun _ => decide_eq_true) hnew (by decide), ?_⟩
  obtain rfl := Option.some.inj hnew
  decide +kernel

end Lc3Simulator
