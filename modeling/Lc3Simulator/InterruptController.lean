import Lc3Simulator.Register
import Mathlib.Data.Nat.Notation

/-!
# The interrupt controller

The functions of `interrupt_controller.c`. The two arrays are vectors of their declared length,
and every access is checked: a function returns `none` as soon as it uses an index outside an
array. Array indices are natural numbers; `last_parent_index` may be `-1` and is an integer.

## Main definitions

* `InterruptController` — `struct interrupt_controller`
* `interruptQueuePercolateUp`, `interruptQueuePercolateDown` — the two sifts
* `checkHeap` — the check of the order
* `interruptControllerAlert`, `interruptControllerPeek`, `interruptControllerTake`
-/

namespace Lc3Simulator

/-- `IMPOSSIBLE_PRIORITY`. -/
def impossiblePriority : Byte := 255

/-- `struct interrupt_controller`. Both arrays are declared with `UINT8_MAX` elements. -/
structure InterruptController where
  /-- Index is vector. Contains priorities. -/
  interrupts : Vector Byte 255
  /-- Heap of vectors, based on the priorities in `interrupts`. -/
  queueHeap : Vector Byte 255
  queueHeapSize : ℕ
  deriving DecidableEq

/-- `array[index] = value`, checked. -/
def writeArray {α : Type} {n : ℕ} (array : Vector α n) (index : ℕ) (value : α) :
    Option (Vector α n) :=
  if h : index < n then some (array.set index value) else none

/-- `interrupt_controller_new`. The queue is not initialised by the source; its contents are not
read before they are written. -/
def interruptControllerNew : InterruptController where
  interrupts := Vector.replicate 255 impossiblePriority
  queueHeap := Vector.replicate 255 0
  queueHeapSize := 0

/-- `parent_index`. -/
def parentIndex (index : ℕ) : ℕ := (index - 1) / 2

/-- `interrupt_queue_swap`. -/
def interruptQueueSwap (interCont : InterruptController) (index1 index2 : ℕ) :
    Option InterruptController := do
  let temp ← interCont.queueHeap[index1]?
  let second ← interCont.queueHeap[index2]?
  let queueHeap ← writeArray interCont.queueHeap index1 second
  let queueHeap ← writeArray queueHeap index2 temp
  return { interCont with queueHeap }

/-- `interrupts[queue_heap[index]]`, with the vector it is the priority of. -/
def queueEntry (interCont : InterruptController) (index : ℕ) : Option (Byte × Byte) := do
  let vec ← interCont.queueHeap[index]?
  let priority ← interCont.interrupts[vec.toNat]?
  return (priority, vec)

/-- `interrupt_queue_should_percolate_up`. -/
def interruptQueueShouldPercolateUp (interCont : InterruptController) (childI parentI : ℕ) :
    Option Bool := do
  let (childPriority, childVec) ← queueEntry interCont childI
  let (parentPriority, parentVec) ← queueEntry interCont parentI
  if childPriority = parentPriority then
    return decide (childVec > parentVec)
  return decide (childPriority > parentPriority)

theorem parentIndex_lt {index : ℕ} (h : index ≠ 0) : parentIndex index < index := by
  rw [parentIndex]
  omega

/-- `interrupt_queue_percolate_up`, from `cur_i` on. -/
def interruptQueuePercolateUp (interCont : InterruptController) (curI : ℕ) :
    Option InterruptController :=
  if _h : curI ≠ 0 then do
    let parentI := parentIndex curI
    if !(← interruptQueueShouldPercolateUp interCont curI parentI) then
      return interCont
    let interCont ← interruptQueueSwap interCont curI parentI
    interruptQueuePercolateUp interCont parentI
  else
    return interCont
termination_by curI
decreasing_by exact parentIndex_lt _h

/-- `last_parent_index`. -/
def lastParentIndex (size : ℕ) : ℤ := (size / 2 : ℕ) - 1

/-- `left_child_index`. -/
def leftChildIndex (index : ℕ) : ℕ := (2 * index) + 1

/-- `right_child_index`. -/
def rightChildIndex (index : ℕ) : ℕ := 2 * index + 2

/-- `interrupt_queue_max_index`. -/
def interruptQueueMaxIndex (interCont : InterruptController) (index1 index2 : ℕ) : Option ℕ := do
  let (priority1, vec1) ← queueEntry interCont index1
  let (priority2, vec2) ← queueEntry interCont index2
  if priority1 = priority2 then
    return if vec1 > vec2 then index1 else index2
  return if priority1 > priority2 then index1 else index2

/-- `max_child_index`. -/
def maxChildIndex (interCont : InterruptController) (index : ℕ) : Option ℕ :=
  let leftI := leftChildIndex index
  let rightI := rightChildIndex index
  if rightI ≥ interCont.queueHeapSize then
    some leftI
  else
    interruptQueueMaxIndex interCont leftI rightI

/-- `interrupt_queue_should_percolate_down`. -/
def interruptQueueShouldPercolateDown (interCont : InterruptController) (parentI childI : ℕ) :
    Option Bool := do
  let (parentPriority, parentVec) ← queueEntry interCont parentI
  let (childPriority, childVec) ← queueEntry interCont childI
  if parentPriority = childPriority then
    return decide (parentVec < childVec)
  return decide (parentPriority < childPriority)

/-- The child that `max_child_index` returns is one of the two children. -/
theorem eq_or_eq_of_maxChildIndex {interCont : InterruptController} {index child : ℕ}
    (h : maxChildIndex interCont index = some child) :
    child = leftChildIndex index ∨ child = rightChildIndex index := by
  simp only [maxChildIndex] at h
  split at h
  · exact Or.inl (Option.some.inj h).symm
  · rw [interruptQueueMaxIndex] at h
    obtain ⟨x, -, h⟩ := Option.bind_eq_some_iff.mp h
    obtain ⟨y, -, h⟩ := Option.bind_eq_some_iff.mp h
    grind

theorem lt_of_maxChildIndex {interCont : InterruptController} {index child : ℕ}
    (h : maxChildIndex interCont index = some child) : index < child := by
  rcases eq_or_eq_of_maxChildIndex h with rfl | rfl
  · rw [leftChildIndex]
    omega
  · rw [rightChildIndex]
    omega

/-- The loop of `interrupt_queue_percolate_down`. `last_parent_i` is computed once, before it. -/
def interruptQueuePercolateDownLoop (lastParentI : ℤ) (interCont : InterruptController)
    (curParentI : ℕ) : Option InterruptController :=
  if (curParentI : ℤ) ≤ lastParentI then
    match _h : maxChildIndex interCont curParentI with
    | none => none
    | some largestChildI => do
      if !(← interruptQueueShouldPercolateDown interCont curParentI largestChildI) then
        return interCont
      let interCont ← interruptQueueSwap interCont curParentI largestChildI
      interruptQueuePercolateDownLoop lastParentI interCont largestChildI
  else
    return interCont
termination_by (lastParentI + 1 - curParentI).toNat
decreasing_by
  have hlt : curParentI < largestChildI := lt_of_maxChildIndex _h
  omega

/-- `interrupt_queue_percolate_down`. -/
def interruptQueuePercolateDown (interCont : InterruptController) (parentI : ℕ) :
    Option InterruptController :=
  interruptQueuePercolateDownLoop (lastParentIndex interCont.queueHeapSize) interCont parentI

/-- `valid_child`. -/
def validChild (interCont : InterruptController) (childI parentI : ℕ) : Option Bool := do
  let (childPriority, childVec) ← queueEntry interCont childI
  let (parentPriority, parentVec) ← queueEntry interCont parentI
  if childPriority = parentPriority then
    return decide (childVec ≤ parentVec)
  return decide (childPriority < parentPriority)

/-- The test of one child in `check_heap`, if it is in the queue. -/
def checkChild (interCont : InterruptController) (childI parentI : ℕ) : Option Bool :=
  if (childI : ℤ) ≤ (interCont.queueHeapSize : ℤ) - 1 then validChild interCont childI parentI
  else some true

/-- The loop of `check_heap`, from `i` on. -/
def checkHeapLoop (lastParentI : ℤ) (interCont : InterruptController) (i : ℕ) : Option Bool :=
  if (i : ℤ) ≤ lastParentI then do
    let leftChild := leftChildIndex i
    let rightChild := rightChildIndex i
    if !(← checkChild interCont leftChild i) then
      return false
    if !(← checkChild interCont rightChild i) then
      return false
    checkHeapLoop lastParentI interCont (i + 1)
  else
    return true
termination_by (lastParentI + 1 - i).toNat

/-- `check_heap`. The result 1 is `true`. -/
def checkHeap (interCont : InterruptController) : Option Bool :=
  checkHeapLoop (lastParentIndex interCont.queueHeapSize) interCont 0

/-- `interrupt_queue_enqueue`. -/
def interruptQueueEnqueue (interCont : InterruptController) (value : Byte) :
    Option InterruptController := do
  let queueHeap ← writeArray interCont.queueHeap interCont.queueHeapSize value
  let interCont := { interCont with queueHeap, queueHeapSize := interCont.queueHeapSize + 1 }
  interruptQueuePercolateUp interCont (interCont.queueHeapSize - 1)

/-- `interrupt_queue_dequeue`, called with a non-empty queue only. -/
def interruptQueueDequeue (interCont : InterruptController) :
    Option (Byte × InterruptController) := do
  let vec ← interCont.queueHeap[0]?
  let interCont := { interCont with queueHeapSize := interCont.queueHeapSize - 1 }
  let last ← interCont.queueHeap[interCont.queueHeapSize]?
  let queueHeap ← writeArray interCont.queueHeap 0 last
  let interCont := { interCont with queueHeap }
  let interCont ← interruptQueuePercolateDown interCont 0
  return (vec, interCont)

/-- `interrupt_queue_peek`. -/
def interruptQueuePeek (interCont : InterruptController) : Option Byte :=
  interCont.queueHeap[0]?

/-- `interrupt_controller_alert`. -/
def interruptControllerAlert (interCont : InterruptController) (vec priority : Byte) :
    Option InterruptController := do
  let current ← interCont.interrupts[vec.toNat]?
  if current = impossiblePriority then
    let interrupts ← writeArray interCont.interrupts vec.toNat priority
    interruptQueueEnqueue { interCont with interrupts } vec
  else
    return interCont

/-- `interrupt_controller_peek`. The inner option is the result: the vector and the priority the
source stores through its pointers when it returns 1. -/
def interruptControllerPeek (interCont : InterruptController) : Option (Option (Byte × Byte)) :=
  if interCont.queueHeapSize > 0 then do
    let vec ← interruptQueuePeek interCont
    let priority ← interCont.interrupts[vec.toNat]?
    return some (vec, priority)
  else
    return none

/-- `interrupt_controller_take`. -/
def interruptControllerTake (interCont : InterruptController) : Option InterruptController :=
  if interCont.queueHeapSize = 0 then
    return interCont
  else do
    let (vec, interCont) ← interruptQueueDequeue interCont
    let interrupts ← writeArray interCont.interrupts vec.toNat impossiblePriority
    return { interCont with interrupts }

end Lc3Simulator
