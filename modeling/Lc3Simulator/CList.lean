import Lc3Simulator.Library.SlotBlock
import Lc3Simulator.Library.SortSearch
import Mathlib.Algebra.Group.Nat.Defs
import Mathlib.Data.Int.Notation

/-!
# Growing lists

The functions of `list.c`, in the order of the source. A list keeps its elements in the first slots
of a block, and asks for a larger block when an element is added to one that is full. It takes for
granted that the new block is larger: how much larger is what `expand_mult` says. Sorting and
searching are left to the C library.

A call that accesses memory outside of the block has no result.

## Main definitions

* `ListAllocator` — what the allocator grants
* `CList` — `struct list`
* `CList.add`, `CList.get`, `CList.remove`, `CList.clear`, `CList.sort`, `CList.bsearch` — the
  operations
* `CList.Represents` — the elements of a list

## Main results

* `CList.add_represents`, `CList.add_of_full` — adding an element, and where it goes wrong
* `CList.remove_represents`, `CList.get_eq`, `CList.sort_represents`, `CList.bsearch_eq` — the other
  operations
-/

namespace Lc3Simulator

open SlotBlock

/-- `struct list_allocator`: the sizes for which `alloc` and `realloc` return a block. No object has
more than `PTRDIFF_MAX` bytes. -/
structure ListAllocator where
  grants : ℕ → Bool
  lt_of_grants : ∀ size, grants size = true → size < 2 ^ 63

/-- The product of two numbers of type `size_t`. -/
def sizeMul (a b : ℕ) : ℕ := a * b % 2 ^ 64

/-- `sizeof(struct list)`. -/
def listStructSize : ℕ := 48

/-- `struct list`, without the allocator. The source has `expand_mult` as a `double`, of which its
clients use the values `1` and `2`: a capacity is a small number times a power of two, and its
product with either of them is exact. -/
structure CList (α : Type) where
  data : Slots α
  dataSize : ℕ
  numElements : ℕ
  capacity : ℕ
  expandMult : ℕ

namespace CList

variable {α : Type}

/-- `list_new`. -/
def new (al : ListAllocator) (dataSize initCapacity expandMult : ℕ) : Option (CList α) :=
  if al.grants listStructSize ∧ al.grants (sizeMul dataSize initCapacity) then
    some ⟨alloc (sizeMul dataSize initCapacity / dataSize), dataSize, 0, initCapacity, expandMult⟩
  else none

/-- `list_resize`. The new capacity is a `double` that is converted to `size_t`, which is defined
for numbers in the range of that type only. -/
def resize (al : ListAllocator) (list : CList α) : Option (ℤ × CList α) :=
  let newCapacity := list.capacity * list.expandMult
  if newCapacity < 2 ^ 64 then
    let size := sizeMul newCapacity list.dataSize
    if al.grants size then
      let data := SlotBlock.resize (size / list.dataSize) list.data
      some (0, { list with data, capacity := newCapacity })
    else some (-1, list)
  else none

/-- The last statements of `list_add`, which store the element behind the others. -/
def store (list : CList α) (x : α) : Option (ℤ × CList α) :=
  (write list.data list.numElements x).map fun data =>
    (0, { list with data, numElements := list.numElements + 1 })

/-- `list_add`. -/
def add (al : ListAllocator) (list : CList α) (x : α) : Option (ℤ × CList α) :=
  if list.numElements = list.capacity then do
    let (status, list) ← list.resize al
    if status < 0 then some (-1, list) else list.store x
  else list.store x

/-- `list_clear`. -/
def clear (list : CList α) : CList α := { list with numElements := 0 }

/-- `list_get`: a null pointer, or what is in the slot that the pointer leads to. -/
def get (list : CList α) (index : ℕ) : Option (Option α) :=
  if index ≥ list.numElements then none else some list.data[index]?.join

/-- `list_sort`. -/
def sort (libc : SortSearch α) (comparator : α → α → ℤ) (list : CList α) : Option (CList α) :=
  (read list.numElements list.data).map fun xs =>
    { list with data := overwrite list.data (libc.qsort comparator xs) }

/-- `list_bsearch`, for a comparator that has the key: a null pointer, or the element that the
pointer leads to. -/
def bsearch (libc : SortSearch α) (comparator : α → ℤ) (list : CList α) : Option (Option α) :=
  (read list.numElements list.data).map (libc.bsearch comparator)

/-- The loop of `list_remove`, with `rounds` rounds to go. -/
def removeLoop : ℕ → ℕ → Slots α → Option (Slots α)
  | 0, _, data => some data
  | rounds + 1, curMoveIndex, data => do
    let data ← copy data (curMoveIndex - 1) curMoveIndex
    removeLoop rounds (curMoveIndex + 1) data

/-- `list_remove`. -/
def remove (list : CList α) (index : ℕ) : Option (CList α) :=
  if index ≥ list.numElements then some list
  else do
    let data ← removeLoop (list.numElements - (index + 1)) (index + 1) list.data
    some { list with data, numElements := list.numElements - 1 }

/-! ### The elements of a list -/

/-- The list has the elements `xs`, in a block that has a slot for each element of its capacity. -/
structure Represents (list : CList α) (xs : List α) : Prop where
  numElements : list.numElements = xs.length
  holds : Holds list.data xs
  length_data : list.data.length = list.capacity
  dataSize_pos : 0 < list.dataSize
  bytes_lt : list.capacity * list.dataSize < 2 ^ 63

variable {al : ListAllocator} {list list' : CList α} {xs : List α}

/-- **The elements fit into the block.** -/
theorem Represents.numElements_le (h : list.Represents xs) : list.numElements ≤ list.capacity := by
  rw [h.numElements, ← h.length_data]
  exact h.holds.length_le

/-- **`list_get`** returns the element, and `NULL` behind the last one. -/
theorem get_eq (h : list.Represents xs) (index : ℕ) : list.get index = xs[index]?.map some := by
  rw [get, h.numElements]
  by_cases hi : index < xs.length
  · rw [if_neg (Nat.not_le.mpr hi), h.holds.getElem? hi, List.getElem?_eq_getElem hi]
    rfl
  · rw [if_pos (Nat.not_lt.mp hi), List.getElem?_eq_none (Nat.not_lt.mp hi)]
    rfl

theorem new_represents {dataSize initCapacity expandMult : ℕ} (hpos : 0 < dataSize)
    (hbytes : initCapacity * dataSize < 2 ^ 63)
    (h : new al dataSize initCapacity expandMult = some list) :
    list.Represents ([] : List α) ∧ list.capacity = initCapacity ∧
      list.expandMult = expandMult := by
  rw [new] at h
  split at h
  · obtain rfl := Option.some.inj h
    have hsize : sizeMul dataSize initCapacity = initCapacity * dataSize := by
      rw [sizeMul, Nat.mul_comm, Nat.mod_eq_of_lt (by omega)]
    refine ⟨⟨rfl, holds_nil _, ?_, hpos, hbytes⟩, rfl, rfl⟩
    rw [length_alloc, hsize, Nat.mul_div_cancel _ hpos]
  · cases h

theorem clear_represents (h : list.Represents xs) : list.clear.Represents [] :=
  ⟨rfl, holds_nil _, h.length_data, h.dataSize_pos, h.bytes_lt⟩

/-- **`list_resize`**, if it is granted, leads to a block with a slot for each element of the new
capacity: a block that can be granted is so small that the product for its size does not wrap. -/
theorem resize_represents (h : list.Represents xs)
    (hmult : list.expandMult = 1 ∨ list.expandMult = 2)
    (hgrant : list.resize al = some (0, list')) :
    list'.Represents xs ∧ list'.capacity = list.capacity * list.expandMult ∧
      list'.expandMult = list.expandMult ∧ list'.numElements = list.numElements := by
  have hbytes := h.bytes_lt
  have hproduct : list.capacity * list.expandMult * list.dataSize < 2 ^ 64 := by
    rw [Nat.mul_right_comm]
    rcases hmult with hone | htwo
    · rw [hone]
      omega
    · rw [htwo]
      omega
  have hsize : sizeMul (list.capacity * list.expandMult) list.dataSize =
      list.capacity * list.expandMult * list.dataSize := Nat.mod_eq_of_lt hproduct
  have hgrows : list.capacity ≤ list.capacity * list.expandMult :=
    Nat.le_mul_of_pos_right _ (by omega)
  rw [resize] at hgrant
  simp only [hsize] at hgrant
  split at hgrant
  · split at hgrant
    · rename_i hgranted
      obtain ⟨-, rfl⟩ := Prod.mk.inj (Option.some.inj hgrant)
      refine ⟨⟨h.numElements, h.holds.resize ?_, ?_, h.dataSize_pos, ?_⟩, rfl, rfl, rfl⟩
      · rw [Nat.mul_div_cancel _ h.dataSize_pos, ← h.numElements]
        exact Nat.le_trans h.numElements_le hgrows
      · rw [length_resize, Nat.mul_div_cancel _ h.dataSize_pos]
      · exact al.lt_of_grants _ hgranted
    · exact absurd (Prod.mk.inj (Option.some.inj hgrant)).1 (by decide)
  · cases hgrant

/-- A block of the size that the list has already is one that can be granted. -/
theorem Represents.resize_same (h : list.Represents xs)
    (hgrants : ∀ size, size < 2 ^ 63 → al.grants size = true) (hone : list.expandMult = 1) :
    ∃ list', list.resize al = some (0, list') := by
  have hbytes := h.bytes_lt
  have hcapacity : list.capacity < 2 ^ 64 := by
    have hle := Nat.le_mul_of_pos_right list.capacity h.dataSize_pos
    omega
  have hsize : sizeMul list.capacity list.dataSize = list.capacity * list.dataSize :=
    Nat.mod_eq_of_lt (by omega)
  rw [resize, hone, Nat.mul_one, if_pos hcapacity, hsize, if_pos (hgrants _ hbytes)]
  exact ⟨_, rfl⟩

/-- With a slot to spare the element is stored. -/
theorem store_represents (h : list.Represents xs) (hlt : list.numElements < list.capacity) (x : α) :
    ∃ list', list.store x = some (0, list') ∧ list'.Represents (xs ++ [x]) ∧
      list'.capacity = list.capacity ∧ list'.expandMult = list.expandMult := by
  have hroom : xs.length < list.data.length := by rwa [h.length_data, ← h.numElements]
  obtain ⟨data, hwrite, hlength, hholds⟩ := h.holds.write hroom x
  rw [store, h.numElements, hwrite]
  refine ⟨_, rfl, ⟨?_, hholds, hlength.trans h.length_data, h.dataSize_pos, h.bytes_lt⟩, rfl, rfl⟩
  rw [List.length_append, List.length_singleton]

/-- Without one, the write is outside of the block. -/
theorem store_of_full (h : list.Represents xs) (hfull : list.numElements = list.capacity) (x : α) :
    list.store x = none := by
  rw [store, write_of_le (Nat.le_of_eq (h.length_data.trans hfull.symm))]
  rfl

/-- `realloc` succeeds, if the operation asks for it. -/
def ReallocSucceeds (al : ListAllocator) (list : CList α) : Prop :=
  list.numElements = list.capacity → ∃ list', list.resize al = some (0, list')

/-- **`list_add`** stores the element, if there is a slot for it or the capacity doubles. -/
theorem add_represents (h : list.Represents xs) (hcapacity : 0 < list.capacity)
    (hrealloc : list.ReallocSucceeds al)
    (hroom : list.expandMult = 2 ∨ list.numElements < list.capacity) (x : α) :
    ∃ list', list.add al x = some (0, list') ∧ list'.Represents (xs ++ [x]) ∧
      list'.expandMult = list.expandMult ∧
      (list'.capacity = list.capacity ∨
        list.expandMult = 2 ∧ list'.capacity = list.capacity * 2) := by
  rw [add]
  by_cases hfull : list.numElements = list.capacity
  · have htwo : list.expandMult = 2 := hroom.resolve_right (by omega)
    obtain ⟨grown, hresize⟩ := hrealloc hfull
    obtain ⟨hgrown, hdouble, hmult, hnum⟩ := resize_represents h (Or.inr htwo) hresize
    obtain ⟨list', hstore, hlist', hcap, hmult'⟩ :=
      store_represents hgrown (by rw [hnum, hdouble, htwo]; omega) x
    refine ⟨list', ?_, hlist', hmult'.trans hmult, Or.inr ⟨htwo, ?_⟩⟩
    · rw [if_pos hfull, hresize, ← hstore]
      rfl
    · rw [hcap, hdouble, htwo]
  · have hlt : list.numElements < list.capacity :=
      Nat.lt_of_le_of_ne h.numElements_le hfull
    obtain ⟨list', hstore, hlist', hcap, hmult⟩ := store_represents h hlt x
    exact ⟨list', by rw [if_neg hfull, hstore], hlist', hmult, Or.inl hcap⟩

/-- **A full list that does not grow.** With `expand_mult` 1 the block stays as large as it is, and
the element is written behind it. -/
theorem add_of_full (h : list.Represents xs) (hrealloc : list.ReallocSucceeds al)
    (hone : list.expandMult = 1) (hfull : list.numElements = list.capacity) (x : α) :
    list.add al x = none := by
  obtain ⟨grown, hresize⟩ := hrealloc hfull
  obtain ⟨hgrown, hsame, -, hnum⟩ := resize_represents h (Or.inl hone) hresize
  rw [hone, Nat.mul_one] at hsame
  rw [add, if_pos hfull, hresize]
  exact store_of_full hgrown (by rw [hnum, hsame, hfull]) x

/-! ### Sorting and searching -/

theorem read_eq (h : list.Represents xs) : read list.numElements list.data = some xs := by
  rw [h.numElements]
  exact h.holds.read

/-- **`list_sort`** puts the elements in order. -/
theorem sort_represents (h : list.Represents xs) (libc : SortSearch α) {comparator : α → α → ℤ}
    (hconsistent : Consistent comparator) :
    ∃ list', list.sort libc comparator = some list' ∧
      list'.Represents (libc.qsort comparator xs) ∧ list'.capacity = list.capacity ∧
      list'.expandMult = list.expandMult ∧ list'.dataSize = list.dataSize := by
  have hlength := (libc.qsort_perm hconsistent xs).length_eq
  obtain ⟨hholds, hblock⟩ := h.holds.overwrite hlength
  rw [sort, read_eq h]
  exact ⟨_, rfl, ⟨h.numElements.trans hlength.symm, hholds, hblock.trans h.length_data,
    h.dataSize_pos, h.bytes_lt⟩, rfl, rfl, rfl⟩

/-- **`list_bsearch`** searches the elements. -/
theorem bsearch_eq (h : list.Represents xs) (libc : SortSearch α) (comparator : α → ℤ) :
    list.bsearch libc comparator = some (libc.bsearch comparator xs) := by
  rw [bsearch, read_eq h]
  rfl

/-! ### Removing -/

/-- The loop moves the elements from its index on to the slots before them. -/
theorem removeLoop_eq (ys : List α) (front : Slots α) (gap : Option α) (rest : Slots α) :
    ∃ slot, removeLoop ys.length (front.length + 1) (front ++ gap :: ys.map some ++ rest) =
      some (front ++ ys.map some ++ slot :: rest) := by
  induction ys generalizing front gap with
  | nil => exact ⟨gap, by simp [removeLoop]⟩
  | cons y ys ih =>
    obtain ⟨slot, hrest⟩ := ih (front ++ [some y]) (some y)
    refine ⟨slot, ?_⟩
    rw [List.length_cons, removeLoop, Nat.add_sub_cancel]
    have hcopy : copy (front ++ gap :: (y :: ys).map some ++ rest) front.length
        (front.length + 1) = some (front ++ [some y] ++ some y :: ys.map some ++ rest) := by
      have hcopy := copy_append front gap (some y) (ys.map some ++ rest)
      simpa using hcopy
    rw [hcopy, Option.bind_eq_bind, Option.bind_some]
    rw [List.length_append, List.length_singleton] at hrest
    rw [hrest]
    simp

/-- **`list_remove`** takes the element at an index away, and nothing behind the last one. -/
theorem remove_represents (h : list.Represents xs) (index : ℕ) :
    ∃ list', list.remove index = some list' ∧ list'.Represents (xs.eraseIdx index) ∧
      list'.capacity = list.capacity ∧ list'.expandMult = list.expandMult := by
  rw [remove]
  by_cases hi : index < xs.length
  · obtain ⟨rest, hdata⟩ := h.holds
    have hsplit : xs = xs.take index ++ xs[index] :: xs.drop (index + 1) := by simp
    have hmap : xs.map some = (xs.take index).map some ++ some xs[index] ::
        (xs.drop (index + 1)).map some := by
      rw [← List.map_cons, ← List.map_append, ← hsplit]
    have hblock : list.data = (xs.take index).map some ++ some xs[index] ::
        (xs.drop (index + 1)).map some ++ rest := by rw [← hmap, hdata]
    obtain ⟨slot, hloop⟩ := removeLoop_eq (xs.drop (index + 1)) ((xs.take index).map some)
      (some xs[index]) rest
    rw [← hblock, List.length_drop, List.length_map, List.length_take_of_le (Nat.le_of_lt hi)]
      at hloop
    have herase : xs.eraseIdx index = xs.take index ++ xs.drop (index + 1) :=
      List.eraseIdx_eq_take_drop_succ xs index
    rw [if_neg (by rw [h.numElements]; exact Nat.not_le.mpr hi), h.numElements, hloop]
    refine ⟨_, rfl, ⟨?_, ?_, ?_, h.dataSize_pos, h.bytes_lt⟩, rfl, rfl⟩
    · exact (List.length_eraseIdx_of_lt hi).symm
    · rw [herase, Holds, List.map_append]
      exact List.prefix_append _ _
    · rw [← h.length_data, hblock]
      simp [Nat.add_assoc]
  · rw [if_pos (by rw [h.numElements]; exact Nat.le_of_not_lt hi)]
    refine ⟨list, rfl, ?_, rfl, rfl⟩
    rw [List.eraseIdx_of_length_le (Nat.le_of_not_lt hi)]
    exact h

end CList

end Lc3Simulator
