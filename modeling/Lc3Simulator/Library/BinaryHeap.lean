import Mathlib.Data.Multiset.Range
import Mathlib.Data.Multiset.MapFold
import Mathlib.Logic.Equiv.Basic
import Mathlib.Logic.Relation
import Mathlib.Order.Lattice

/-!
# Array heaps

A binary max-heap kept in the first `n` places of an array, children of place `i` at `2 * i + 1`
and `2 * i + 2`. The array is a function `ℕ → α` into a preorder; nothing here fixes an algorithm.

Sifting moves one misplaced entry along a path. At every moment exactly one place is misplaced:
`UpHole` and `DownHole` say what the order looks like around it, and each sift is then three
facts: how the hole is opened, what one swap does to it, and when it closes.

## Main definitions

* `Ancestor` — the places on the path to the root
* `HeapOrdered` — every entry is at most its parent
* `OrderedFrom` — the same for the entries below the places from some place on
* `UpHole`, `DownHole` — the same except at one place, on the way up and on the way down
* `contents` — the multiset of stored entries

## Main results

* `HeapOrdered.le_root` — the root is a greatest entry
* `heapOrdered_iff_ancestor` — no entry exceeds one on its path to the root
* `UpHole.swap`, `UpHole.close`, `DownHole.swap`, `DownHole.close` — the two sifts
* `contents_swap` — a swap moves entries and changes nothing else
-/

namespace BinaryHeap

variable {α : Type*}

/-! ### The tree on places -/

/-- The parent of place `i`. Place `0` has none; the formula gives `0` there. -/
def parent (i : ℕ) : ℕ := (i - 1) / 2

theorem parent_lt {i : ℕ} (hi : 0 < i) : parent i < i := by
  rw [parent]
  omega

/-- A place other than the root is one of the two children of its parent. -/
theorem eq_child_of_parent {i j : ℕ} (hj : 0 < j) (h : parent j = i) :
    j = 2 * i + 1 ∨ j = 2 * i + 2 := by
  rw [parent] at h
  omega

/-- Place `a` is on the path from place `i` to the root, and is not `i` itself. -/
def Ancestor : ℕ → ℕ → Prop := Relation.TransGen fun a i => 0 < i ∧ parent i = a

/-! ### Heap order -/

section Order

variable [Preorder α]

/-- Every one of the first `n` entries is at most its parent. -/
def HeapOrdered (n : ℕ) (q : ℕ → α) : Prop := ∀ j, 0 < j → j < n → q j ≤ q (parent j)

/-- **The root is a greatest entry.** -/
theorem HeapOrdered.le_root {n : ℕ} {q : ℕ → α} (h : HeapOrdered n q) {i : ℕ} (hi : i < n) :
    q i ≤ q 0 := by
  induction i using Nat.strongRec with
  | ind i ih =>
    rcases Nat.eq_zero_or_pos i with rfl | hpos
    · exact le_rfl
    · have hlt : parent i < i := parent_lt hpos
      exact (h i hpos hi).trans (ih (parent i) hlt (hlt.trans hi))

/-- The order below the places from `i` on. -/
def OrderedFrom (n : ℕ) (q : ℕ → α) (i : ℕ) : Prop :=
  ∀ j, 0 < j → j < n → i ≤ parent j → q j ≤ q (parent j)

theorem orderedFrom_zero {n : ℕ} {q : ℕ → α} : OrderedFrom n q 0 ↔ HeapOrdered n q :=
  forall₃_congr fun j _ _ => forall_prop_of_true (Nat.zero_le (parent j))

/-- A place without a left child is followed by places without children only. -/
theorem orderedFrom_of_le {n i : ℕ} (q : ℕ → α) (h : n ≤ 2 * i + 1) : OrderedFrom n q i := by
  intro j hpos hj hp
  rcases eq_child_of_parent hpos rfl with hchild | hchild <;> omega

/-- One place more has at most two children to compare with. -/
theorem orderedFrom_iff {n i : ℕ} {q : ℕ → α} :
    OrderedFrom n q i ↔ (2 * i + 1 < n → q (2 * i + 1) ≤ q i) ∧
      (2 * i + 2 < n → q (2 * i + 2) ≤ q i) ∧ OrderedFrom n q (i + 1) := by
  have hleft : parent (2 * i + 1) = i := by unfold parent; omega
  have hright : parent (2 * i + 2) = i := by unfold parent; omega
  constructor
  · intro h
    refine ⟨fun hlt => ?_, fun hlt => ?_, fun j hpos hj hp => h j hpos hj (by omega)⟩
    · have hle := h _ (Nat.succ_pos _) hlt hleft.ge
      rwa [hleft] at hle
    · have hle := h _ (Nat.succ_pos _) hlt hright.ge
      rwa [hright] at hle
  · rintro ⟨hl, hr, hrest⟩ j hpos hj hp
    rcases Nat.eq_or_lt_of_le hp with heq | hlt
    · rw [← heq]
      rcases eq_child_of_parent hpos heq.symm with rfl | rfl
      · exact hl hj
      · exact hr hj
    · exact hrest j hpos hj hlt

/-- **The local order is the order along every path to the root.** -/
theorem heapOrdered_iff_ancestor {n : ℕ} {q : ℕ → α} :
    HeapOrdered n q ↔ ∀ i < n, ∀ a, Ancestor a i → q i ≤ q a := by
  constructor
  · intro h i hi a ha
    induction ha with
    | @single b hb =>
      obtain ⟨hpos, rfl⟩ := hb
      exact h b hpos hi
    | @tail b j _ hj ih =>
      obtain ⟨hpos, rfl⟩ := hj
      exact (h j hpos hi).trans (ih ((parent_lt hpos).trans hi))
  · intro h j hpos hj
    exact h j hj (parent j) (Relation.TransGen.single ⟨hpos, rfl⟩)

/-- Ordered except for the edge from `i` to its parent; the children of `i` fit under that
parent, so the entry at `i` may move up. -/
structure UpHole (n : ℕ) (q : ℕ → α) (i : ℕ) : Prop where
  /-- Every other edge is in order. -/
  rest : ∀ j, 0 < j → j < n → j ≠ i → q j ≤ q (parent j)
  /-- The children of `i` are at most the parent of `i`. -/
  grand : ∀ j, 0 < j → j < n → parent j = i → 0 < i → q j ≤ q (parent i)

/-- Appending an entry opens a hole at its place. -/
theorem HeapOrdered.upHole {n : ℕ} {q q' : ℕ → α} (h : HeapOrdered n q)
    (hq : ∀ j < n, q' j = q j) : UpHole (n + 1) q' n where
  rest j hpos hj hne := by
    have hlt : parent j < j := parent_lt hpos
    rw [hq j (by omega), hq (parent j) (by omega)]
    exact h j hpos (by omega)
  grand j hpos hj hp _ := by
    have hlt : parent j < j := parent_lt hpos
    omega

theorem UpHole.close {n : ℕ} {q : ℕ → α} {i : ℕ} (h : UpHole n q i)
    (hi : i = 0 ∨ q i ≤ q (parent i)) : HeapOrdered n q := by
  intro j hpos hj
  rcases eq_or_ne j i with rfl | hne
  · exact hi.resolve_left (Nat.ne_of_gt hpos)
  · exact h.rest j hpos hj hne

/-- Swapping the misplaced entry with a smaller parent moves the hole to the parent. -/
theorem UpHole.swap {n : ℕ} {q : ℕ → α} {i : ℕ} (h : UpHole n q i) (hpos : 0 < i) (hi : i < n)
    (hle : q (parent i) ≤ q i) : UpHole n (q ∘ Equiv.swap i (parent i)) (parent i) := by
  have hlt : parent i < i := parent_lt hpos
  refine ⟨fun j hj hjn hne => ?_, fun j hj hjn hp hpp => ?_⟩
  · have hpj : parent j < j := parent_lt hj
    rcases eq_or_ne j i with rfl | hji
    · simpa using hle
    · rw [Function.comp_apply, Function.comp_apply, Equiv.swap_apply_of_ne_of_ne hji hne]
      rcases eq_or_ne (parent j) i with hpi | hpi
      · rw [hpi, Equiv.swap_apply_left]
        exact h.grand j hj hjn hpi hpos
      · rcases eq_or_ne (parent j) (parent i) with hpp | hpp
        · rw [hpp, Equiv.swap_apply_right]
          exact (hpp ▸ h.rest j hj hjn hji).trans hle
        · rw [Equiv.swap_apply_of_ne_of_ne hpi hpp]
          exact h.rest j hj hjn hji
  · have hpj : parent j < j := parent_lt hj
    have hgp : parent (parent i) < parent i := parent_lt hpp
    have hup : q (parent i) ≤ q (parent (parent i)) :=
      h.rest (parent i) hpp (hlt.trans hi) (Nat.ne_of_lt hlt)
    rw [Function.comp_apply, Function.comp_apply,
      Equiv.swap_apply_of_ne_of_ne (x := parent (parent i)) (by omega) (by omega)]
    rcases eq_or_ne j i with rfl | hji
    · simpa using hup
    · rw [Equiv.swap_apply_of_ne_of_ne hji (by omega)]
      exact (hp ▸ h.rest j hj hjn hji).trans hup

/-- Ordered except for the edges from `i` to its children; those children fit under the parent
of `i`, so a child may move up into `i`. -/
structure DownHole (n : ℕ) (q : ℕ → α) (i : ℕ) : Prop where
  /-- Every other edge is in order. -/
  rest : ∀ j, 0 < j → j < n → parent j ≠ i → q j ≤ q (parent j)
  /-- The children of `i` are at most the parent of `i`. -/
  grand : ∀ j, 0 < j → j < n → parent j = i → 0 < i → q j ≤ q (parent i)

/-- Replacing the root, and dropping the last place, opens a hole at the root. -/
theorem HeapOrdered.downHole {n m : ℕ} {q q' : ℕ → α} (h : HeapOrdered n q) (hm : m ≤ n)
    (hq : ∀ j, 0 < j → j < m → q' j = q j) : DownHole m q' 0 where
  rest j hpos hj hp := by
    have hlt : parent j < j := parent_lt hpos
    rw [hq j hpos hj, hq (parent j) (Nat.pos_of_ne_zero hp) (hlt.trans hj)]
    exact h j hpos (Nat.lt_of_lt_of_le hj hm)
  grand j _ _ _ h0 := absurd h0 (Nat.lt_irrefl 0)

theorem DownHole.close {n : ℕ} {q : ℕ → α} {i : ℕ} (h : DownHole n q i)
    (hi : ∀ j, 0 < j → j < n → parent j = i → q j ≤ q i) : HeapOrdered n q := by
  intro j hpos hj
  rcases eq_or_ne (parent j) i with hp | hp
  · rw [hp]
    exact hi j hpos hj hp
  · exact h.rest j hpos hj hp

/-- Swapping the misplaced entry with its greatest child moves the hole to that child. -/
theorem DownHole.swap {n : ℕ} {q : ℕ → α} {i c : ℕ} (h : DownHole n q i) (hpos : 0 < c)
    (hc : c < n) (hp : parent c = i) (hle : q i ≤ q c)
    (hmax : ∀ j, 0 < j → j < n → parent j = i → q j ≤ q c) :
    DownHole n (q ∘ Equiv.swap i c) c := by
  have hlt : i < c := hp ▸ parent_lt hpos
  refine ⟨fun j hj hjn hne => ?_, fun j hj hjn hpc _ => ?_⟩
  · have hpj : parent j < j := parent_lt hj
    rw [Function.comp_apply, Function.comp_apply]
    rcases eq_or_ne (parent j) i with hpi | hpi
    · rw [hpi, Equiv.swap_apply_left]
      rcases eq_or_ne j c with rfl | hjc
      · simpa using hle
      · rw [Equiv.swap_apply_of_ne_of_ne (by omega) hjc]
        exact hmax j hj hjn hpi
    · rw [Equiv.swap_apply_of_ne_of_ne hpi hne]
      rcases eq_or_ne j i with rfl | hji
      · rw [Equiv.swap_apply_left]
        exact h.grand c hpos hc hp hj
      · rw [Equiv.swap_apply_of_ne_of_ne hji (fun hjc => hpi (hjc ▸ hp))]
        exact h.rest j hj hjn hpi
  · have hpj : parent j < j := parent_lt hj
    rw [Function.comp_apply, Function.comp_apply, hp, Equiv.swap_apply_left,
      Equiv.swap_apply_of_ne_of_ne (by omega) (by omega)]
    exact hpc ▸ h.rest j hj hjn (by omega)

end Order

/-! ### Contents -/

/-- The entries stored in the first `n` places, with their multiplicities. -/
def contents (n : ℕ) (q : ℕ → α) : Multiset α := (Multiset.range n).map q

@[simp] theorem card_contents (n : ℕ) (q : ℕ → α) : (contents n q).card = n := by
  simp [contents]

theorem mem_contents {n : ℕ} {q : ℕ → α} {a : α} : a ∈ contents n q ↔ ∃ i < n, q i = a := by
  simp [contents]

theorem contents_congr {n : ℕ} {q q' : ℕ → α} (h : ∀ i < n, q' i = q i) :
    contents n q' = contents n q :=
  Multiset.map_congr rfl fun i hi => h i (Multiset.mem_range.mp hi)

theorem contents_succ (n : ℕ) (q : ℕ → α) : contents (n + 1) q = q n ::ₘ contents n q := by
  simp [contents, Multiset.range_succ]

/-- **A swap only moves entries.** -/
theorem contents_swap {n i j : ℕ} (hi : i < n) (hj : j < n) (q : ℕ → α) :
    contents n (q ∘ Equiv.swap i j) = contents n q := by
  have hrange : (Multiset.range n).map (Equiv.swap i j) = Multiset.range n := by
    refine (Multiset.Nodup.ext ?_ (Multiset.nodup_range n)).mpr fun k => ?_
    · exact (Multiset.nodup_range n).map (Equiv.swap i j).injective
    · rw [Multiset.mem_map, Multiset.mem_range]
      constructor
      · rintro ⟨m, hm, rfl⟩
        rw [Multiset.mem_range] at hm
        rcases eq_or_ne m i with rfl | hmi
        · simpa using hj
        · rcases eq_or_ne m j with rfl | hmj
          · simpa using hi
          · rwa [Equiv.swap_apply_of_ne_of_ne hmi hmj]
      · intro hk
        refine ⟨Equiv.swap i j k, Multiset.mem_range.mpr ?_, Equiv.swap_apply_self ..⟩
        rcases eq_or_ne k i with rfl | hki
        · simpa using hj
        · rcases eq_or_ne k j with rfl | hkj
          · simpa using hi
          · rwa [Equiv.swap_apply_of_ne_of_ne hki hkj]
  calc contents n (q ∘ Equiv.swap i j)
      = ((Multiset.range n).map (Equiv.swap i j)).map q := by simp [contents]
    _ = contents n q := by rw [hrange, contents]

/-- Moving the last entry over the root removes the root's entry and nothing else. -/
theorem contents_eq_cons_of_root {n : ℕ} {q q' : ℕ → α} (h0 : q' 0 = q n)
    (h : ∀ i, 0 < i → i < n → q' i = q i) : contents (n + 1) q = q 0 ::ₘ contents n q' := by
  cases n with
  | zero => simp [contents, Multiset.range_succ]
  | succ n =>
    have hroot : contents (n + 1) (q ∘ Equiv.swap 0 (n + 1))
        = contents (n + 1) q' := by
      refine contents_congr fun i hi => ?_
      rw [Function.comp_apply]
      rcases Nat.eq_zero_or_pos i with rfl | hpos
      · rw [Equiv.swap_apply_left, h0]
      · rw [Equiv.swap_apply_of_ne_of_ne (by omega) (by omega), h i hpos hi]
    rw [← contents_swap (Nat.succ_pos (n + 1)) (Nat.lt_succ_self (n + 1)) q, contents_succ, hroot,
      Function.comp_apply, Equiv.swap_apply_right]

end BinaryHeap
