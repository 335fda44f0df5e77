import Mathlib.Data.List.Basic

/-!
# Blocks of slots

A block of memory for elements of one size: a number of slots, in each of which there is an element
or, until it is written, nothing of use. Every access is checked, and one outside the block has no
result.

A growing array keeps its elements in the first slots. `Holds` says which ones these are, and the
lemmas say what each access makes of them.

## Main definitions

* `alloc`, `resize` — a new block, and a block with another number of slots
* `write`, `copy` — storing an element, and copying a slot
* `read`, `overwrite` — the elements in the first slots, and other elements in their place
* `Holds` — the elements in the first slots

## Main results

* `Holds.write` — an element is stored behind the others, if there is a slot for it
* `Holds.resize` — a larger block holds the same elements
* `Holds.read`, `Holds.overwrite` — the elements are read, and rearranged
* `copy_append` — copying a slot to the one before it
-/

namespace SlotBlock

/-- The slots of a block. One that was never written is `none`. -/
abbrev Slots (α : Type*) := List (Option α)

variable {α : Type*}

/-- A block that was just allocated. -/
def alloc (n : ℕ) : Slots α := List.replicate n none

/-- A block of `n` slots that starts like another one. -/
def resize (n : ℕ) (block : Slots α) : Slots α :=
  block.take n ++ List.replicate (n - block.length) none

/-- Store an element in a slot. -/
def write (block : Slots α) (i : ℕ) (x : α) : Option (Slots α) :=
  if i < block.length then some (block.set i (some x)) else none

/-- Copy a slot. -/
def copy (block : Slots α) (dst src : ℕ) : Option (Slots α) :=
  if dst < block.length then block[src]?.map (block.set dst) else none

/-- The elements in the first `n` slots, if there are so many and all of them were written. -/
def read : ℕ → Slots α → Option (List α)
  | 0, _ => some []
  | n + 1, some x :: block => (read n block).map (x :: ·)
  | _ + 1, _ => none

/-- The first slots are written again. -/
def overwrite (block : Slots α) (xs : List α) : Slots α := xs.map some ++ block.drop xs.length

@[simp] theorem length_alloc (n : ℕ) : (alloc n : Slots α).length = n := List.length_replicate

@[simp] theorem length_resize (n : ℕ) (block : Slots α) : (resize n block).length = n := by
  rw [resize, List.length_append, List.length_take, List.length_replicate]
  omega

theorem write_of_le {block : Slots α} {i : ℕ} (h : block.length ≤ i) (x : α) :
    write block i x = none := if_neg (Nat.not_lt.mpr h)

/-- Copying the slot behind another one to that place. -/
theorem copy_append (front : Slots α) (gap slot : Option α) (rest : Slots α) :
    copy (front ++ gap :: slot :: rest) front.length (front.length + 1) =
      some (front ++ slot :: slot :: rest) := by
  have hread : (front ++ gap :: slot :: rest)[front.length + 1]? = some slot := by
    rw [List.getElem?_append_right (Nat.le_add_right _ 1), Nat.add_sub_cancel_left]
    rfl
  rw [copy, if_pos (by simp), hread]
  simp

/-! ### The elements in the first slots -/

/-- The first slots hold these elements. -/
def Holds (block : Slots α) (xs : List α) : Prop := xs.map some <+: block

theorem holds_nil (block : Slots α) : Holds block [] := List.nil_prefix

theorem Holds.length_le {block : Slots α} {xs : List α} (h : Holds block xs) :
    xs.length ≤ block.length := by
  have hle : (xs.map some).length ≤ block.length := List.IsPrefix.length_le h
  rwa [List.length_map] at hle

theorem Holds.getElem? {block : Slots α} {xs : List α} (h : Holds block xs) {i : ℕ}
    (hi : i < xs.length) : block[i]? = some xs[i]? := by
  obtain ⟨rest, rfl⟩ := h
  rw [List.getElem?_append_left (by simpa using hi), List.getElem?_map,
    List.getElem?_eq_getElem hi]
  rfl

/-- **Appending.** There is a slot behind the elements as long as they do not fill the block. -/
theorem Holds.write {block : Slots α} {xs : List α} (h : Holds block xs)
    (hlt : xs.length < block.length) (x : α) :
    ∃ block', SlotBlock.write block xs.length x = some block' ∧ block'.length = block.length ∧
      Holds block' (xs ++ [x]) := by
  obtain ⟨rest, rfl⟩ := h
  refine ⟨_, if_pos hlt, List.length_set, ?_⟩
  cases rest with
  | nil => simp at hlt
  | cons slot rest => exact ⟨rest, by simp⟩

/-- **Growing.** -/
theorem Holds.resize {block : Slots α} {xs : List α} (h : Holds block xs) {n : ℕ}
    (hn : xs.length ≤ n) : Holds (resize n block) xs := by
  obtain ⟨rest, rfl⟩ := h
  rw [SlotBlock.resize, List.take_append, List.take_of_length_le (by simpa using hn),
    List.append_assoc]
  exact List.prefix_append _ _

theorem Holds.read {block : Slots α} {xs : List α} (h : Holds block xs) :
    SlotBlock.read xs.length block = some xs := by
  obtain ⟨rest, rfl⟩ := h
  induction xs with
  | nil => rfl
  | cons x xs ih =>
    rw [List.length_cons, List.map_cons, List.cons_append, SlotBlock.read, ih]
    rfl

/-- **Rearranging.** As many elements as before take their place. -/
theorem Holds.overwrite {block : Slots α} {xs ys : List α} (h : Holds block xs)
    (hlength : ys.length = xs.length) :
    Holds (overwrite block ys) ys ∧ (overwrite block ys).length = block.length := by
  refine ⟨List.prefix_append _ _, ?_⟩
  have hle := h.length_le
  rw [SlotBlock.overwrite, List.length_append, List.length_map, List.length_drop]
  omega

end SlotBlock
