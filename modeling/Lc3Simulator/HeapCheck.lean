import Lc3Simulator.PriorityMap

/-!
# What the check of the heap finds out

`check_heap` compares every parent up to `last_parent_index` with its children. In a queue of any
size these pairs are all the places with their parents, so that the check succeeds exactly on a
queue in heap order, and that is a matter of whole paths: no vector exceeds one of its ancestors.

## Main results

* `checkHeap_spec` — the check decides heap order
* `checkHeap_iff_ancestors` — so it finds every vector that exceeds an ancestor, and never fails
  on a queue that calls of the controller lead to
-/

namespace Lc3Simulator

open BinaryHeap Transition

variable {c : InterruptController}

/-- `valid_child` is the comparison that every other function of the queue makes. -/
theorem validChild_eq (h : InBounds c) {childI parentI : ℕ} (hc : childI < c.queueHeapSize)
    (hp : parentI < c.queueHeapSize) :
    validChild c childI parentI = some (decide (entryAt c childI ≤ entryAt c parentI)) := by
  obtain ⟨cp, cv, hce, hck⟩ := queueEntry_eq h hc
  obtain ⟨pp, pv, hpe, hpk⟩ := queueEntry_eq h hp
  have hle : entryAt c childI ≤ entryAt c parentI ↔
      if cp = pp then cv ≤ pv else cp < pp := by
    rw [← not_lt, hck, hpk, requestKey_lt_iff]
    by_cases heq : cp = pp
    · rw [if_pos heq, if_pos heq.symm, BitVec.not_lt]
    · rw [if_neg heq, if_neg (Ne.symm heq), BitVec.not_lt, BitVec.le_def, BitVec.lt_def]
      exact ⟨fun hle => lt_of_le_of_ne hle (mt BitVec.eq_of_toNat_eq heq), le_of_lt⟩
  simp only [validChild, hce, hpe, hle, Option.bind_eq_bind, Option.bind_some]
  split <;> rfl

/-- A child that is not in the queue passes its test. -/
theorem checkChild_eq (h : InBounds c) {childI parentI : ℕ} (hp : parentI < c.queueHeapSize) :
    checkChild c childI parentI =
      some (decide (childI < c.queueHeapSize → entryAt c childI ≤ entryAt c parentI)) := by
  rw [checkChild]
  by_cases hc : childI < c.queueHeapSize
  · rw [if_pos (by omega), validChild_eq h hc hp]
    simp [hc]
  · rw [if_neg (by omega)]
    simp [hc]

/-- One round of the loop compares a place with its two children. -/
theorem checkHeapLoop_round (h : InBounds c) {lastParentI : ℤ} {i : ℕ}
    (hloop : (i : ℤ) ≤ lastParentI) (hi : i < c.queueHeapSize) :
    checkHeapLoop lastParentI c i =
      if (2 * i + 1 < c.queueHeapSize → entryAt c (2 * i + 1) ≤ entryAt c i) ∧
        (2 * i + 2 < c.queueHeapSize → entryAt c (2 * i + 2) ≤ entryAt c i)
      then checkHeapLoop lastParentI c (i + 1) else some false := by
  rw [checkHeapLoop, if_pos hloop]
  simp only [checkChild_eq h hi, leftChildIndex, rightChildIndex, Option.bind_eq_bind,
    Option.bind_some]
  by_cases hleft : 2 * i + 1 < c.queueHeapSize → entryAt c (2 * i + 1) ≤ entryAt c i
  · by_cases hright : 2 * i + 2 < c.queueHeapSize → entryAt c (2 * i + 2) ≤ entryAt c i
    · rw [decide_eq_true hleft, decide_eq_true hright, if_pos (And.intro hleft hright)]
      rfl
    · rw [decide_eq_true hleft, decide_eq_false hright, if_neg (mt And.right hright)]
      rfl
  · rw [decide_eq_false hleft, if_neg (mt And.left hleft)]
    rfl

/-- The loop from `i` on decides the order below the places from `i` on. The places past
`last_parent_index` have no children in the queue, whether its size is odd or even. -/
theorem checkHeapLoop_spec (h : InBounds c) (n : ℕ) {i : ℕ} (hn : c.queueHeapSize - i ≤ n) :
    ∃ valid, checkHeapLoop (lastParentIndex c.queueHeapSize) c i = some valid ∧
      (valid = true ↔ OrderedFrom c.queueHeapSize (entryAt c) i) := by
  have hend (i : ℕ) (hloop : ¬ (i : ℤ) ≤ lastParentIndex c.queueHeapSize) :
      ∃ valid, checkHeapLoop (lastParentIndex c.queueHeapSize) c i = some valid ∧
        (valid = true ↔ OrderedFrom c.queueHeapSize (entryAt c) i) := by
    rw [checkHeapLoop, if_neg hloop]
    rw [lastParentIndex] at hloop
    exact ⟨true, rfl, iff_of_true rfl (orderedFrom_of_le _ (by omega))⟩
  induction n generalizing i with
  | zero => exact hend i (by rw [lastParentIndex]; omega)
  | succ n ih =>
    by_cases hloop : (i : ℤ) ≤ lastParentIndex c.queueHeapSize
    · have hi : i < c.queueHeapSize := by
        rw [lastParentIndex] at hloop
        omega
      obtain ⟨valid, hrest, hiff⟩ := ih (i := i + 1) (by omega)
      rw [checkHeapLoop_round h hloop hi, orderedFrom_iff, ← and_assoc, ← hiff]
      split
      · rename_i hchildren
        exact ⟨valid, hrest, (and_iff_right hchildren).symm⟩
      · rename_i hchildren
        exact ⟨false, rfl, iff_of_false Bool.false_ne_true fun hboth => hchildren hboth.1⟩
    · exact hend i hloop

/-- **`check_heap`** comes back, and decides heap order. -/
theorem checkHeap_spec (h : InBounds c) :
    ∃ valid, checkHeap c = some valid ∧
      (valid = true ↔ HeapOrdered c.queueHeapSize (entryAt c)) := by
  obtain ⟨valid, hcheck, hiff⟩ := checkHeapLoop_spec h (c.queueHeapSize - 0) (i := 0) le_rfl
  exact ⟨valid, hcheck, hiff.trans orderedFrom_zero⟩

/-- **The check is a sound and complete oracle.** On a queue that fits its array and holds vectors
below 255 it says whether any vector exceeds one of its ancestors. If none does, the vector at the
root of a queue that is not empty is a greatest one. It succeeds after any calls of a new controller
with vectors and priorities in `0..254`. -/
theorem checkHeap_iff_ancestors (h : InBounds c) {calls : List InterruptCall}
    (hcalls : ∀ call ∈ calls, call.InRange) :
    (∃ valid, checkHeap c = some valid ∧
      (valid = true ↔
        ∀ i < c.queueHeapSize, ∀ a, Ancestor a i → ¬ entryAt c a < entryAt c i) ∧
      (valid = true → 0 < c.queueHeapSize → vecAt c 0 ∈ queued c ∧
        ∀ v ∈ queued c, requestKey (priorityOf c v) v ≤ entryAt c 0)) ∧
    ∃ outs reached, run interruptCall calls interruptControllerNew = some (outs, reached) ∧
      checkHeap reached = some true := by
  constructor
  · obtain ⟨valid, hcheck, hordered⟩ := checkHeap_spec h
    refine ⟨valid, hcheck, ?_, fun hvalid hpos => ⟨mem_contents.mpr ⟨0, hpos, rfl⟩, ?_⟩⟩
    · simp only [not_lt]
      exact hordered.trans heapOrdered_iff_ancestor
    · intro v hv
      obtain ⟨i, hi, rfl⟩ := mem_contents.mp hv
      exact (hordered.mp hvalid).le_root hi
  · obtain ⟨reached, hrun, hinv, -⟩ :=
      run_refines interruptCall_refines hcalls queueInvariant_new
    obtain ⟨valid, hcheck, hordered⟩ := checkHeap_spec hinv.inBounds
    exact ⟨_, reached, hrun, hcheck.trans (congrArg some (hordered.mpr hinv.ordered))⟩

/-- A queue with vector 9 of priority 4 at the root and vector 3 of priority 5 below it. -/
def crossedQueue : InterruptController where
  interrupts := ((Vector.replicate 255 impossiblePriority).set 3 5).set 9 4
  queueHeap := ((Vector.replicate 255 0).set 0 9).set 1 3
  queueHeapSize := 2

theorem checkHeap_iff_ancestors_crossed :
    checkHeap crossedQueue = some false ∧
    ∃ outs reached, run interruptCall [.alert 9 4, .alert 3 5, .take, .alert 9 6]
        interruptControllerNew = some (outs, reached) ∧ checkHeap reached = some true := by
  have hbounds : InBounds crossedQueue := by
    refine ⟨by decide, fun v hv => ?_⟩
    have hvec : vecAt crossedQueue 0 < 255 ∧ vecAt crossedQueue 1 < 255 := by decide
    obtain ⟨i, hi, rfl⟩ := mem_contents.mp hv
    have hplace : i = 0 ∨ i = 1 := Nat.le_one_iff_eq_zero_or_eq_one.mp (Nat.le_of_lt_succ hi)
    rcases hplace with rfl | rfl
    · exact hvec.1
    · exact hvec.2
  have hcalls : ∀ call ∈ ([.alert 9 4, .alert 3 5, .take, .alert 9 6] : List InterruptCall),
      call.InRange := by decide
  obtain ⟨⟨valid, hcheck, hiff, -⟩, hreached⟩ := checkHeap_iff_ancestors hbounds hcalls
  refine ⟨?_, hreached⟩
  cases valid with
  | false => exact hcheck
  | true =>
    have hexceeds : entryAt crossedQueue 0 < entryAt crossedQueue 1 := by decide
    exact absurd hexceeds (hiff.mp rfl 1 (by decide) 0 (Relation.TransGen.single (by decide)))

end Lc3Simulator
