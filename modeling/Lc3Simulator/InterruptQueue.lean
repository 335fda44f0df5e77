import Lc3Simulator.InterruptController
import Lc3Simulator.Library.BinaryHeap
import Mathlib.Data.Prod.Lex

/-!
# The interrupt queue is a heap

The queue of `interrupt_controller.c` as an array heap: entry `i` is the vector at place `i` with
its priority, compared by priority and then by vector. As long as only vectors below 255 are
queued, no access leaves its array, and the two sifts are the sifts of an array heap.

## Main definitions

* `vecAt`, `priorityOf`, `entryAt` — what the two arrays hold
* `InBounds` — the queue fits its array and holds vectors below 255
* `Rearranged` — the same entries, possibly at other places

## Main results

* `interruptQueuePercolateUp_spec`, `interruptQueuePercolateDown_spec` — the sifts
* `interruptQueueEnqueue_spec`, `interruptQueueDequeue_spec` — the queue operations
-/

namespace Lc3Simulator

open BinaryHeap

/-- The vector at place `i` of the queue. -/
def vecAt (interCont : InterruptController) (i : ℕ) : ℕ := (interCont.queueHeap[i]?.getD 0).toNat

/-- The priority kept for vector `v`. -/
def priorityOf (interCont : InterruptController) (v : ℕ) : ℕ :=
  (interCont.interrupts[v]?.getD 0).toNat

/-- Requests are ordered by priority and then by vector. -/
def requestKey (priority vec : ℕ) : ℕ ×ₗ ℕ := toLex (priority, vec)

/-- The request at place `i` of the queue. -/
def entryAt (interCont : InterruptController) (i : ℕ) : ℕ ×ₗ ℕ :=
  requestKey (priorityOf interCont (vecAt interCont i)) (vecAt interCont i)

/-- The queued vectors. -/
def queued (interCont : InterruptController) : Multiset ℕ :=
  contents interCont.queueHeapSize (vecAt interCont)

/-- The queue fits its array, and the vectors in it index `interrupts`. -/
structure InBounds (interCont : InterruptController) : Prop where
  size_le : interCont.queueHeapSize ≤ 255
  vec_lt : ∀ v ∈ queued interCont, v < 255

theorem InBounds.vecAt_lt {c : InterruptController} (h : InBounds c) {i : ℕ}
    (hi : i < c.queueHeapSize) : vecAt c i < 255 :=
  h.vec_lt _ (mem_contents.mpr ⟨i, hi, rfl⟩)

/-- `c'` keeps the requests of `c`, possibly at other places of the queue. -/
structure Rearranged (c c' : InterruptController) : Prop where
  interrupts : c'.interrupts = c.interrupts
  size : c'.queueHeapSize = c.queueHeapSize
  queued : queued c' = queued c

theorem Rearranged.refl (c : InterruptController) : Rearranged c c := ⟨rfl, rfl, rfl⟩

theorem Rearranged.trans {c c' c'' : InterruptController} (h : Rearranged c c')
    (h' : Rearranged c' c'') : Rearranged c c'' :=
  ⟨h'.interrupts.trans h.interrupts, h'.size.trans h.size, h'.queued.trans h.queued⟩

theorem Rearranged.inBounds {c c' : InterruptController} (h : Rearranged c c')
    (hc : InBounds c) : InBounds c' :=
  ⟨h.size ▸ hc.size_le, h.queued ▸ hc.vec_lt⟩

/-! ### Reading the arrays -/

theorem getElem?_queueHeap (c : InterruptController) {i : ℕ} (hi : i < 255) :
    ∃ vec : Byte, c.queueHeap[i]? = some vec ∧ vec.toNat = vecAt c i := by
  refine ⟨c.queueHeap[i], Vector.getElem?_eq_getElem hi, ?_⟩
  simp [vecAt, hi]

theorem getElem?_interrupts (c : InterruptController) {v : ℕ} (hv : v < 255) :
    ∃ priority : Byte, c.interrupts[v]? = some priority ∧ priority.toNat = priorityOf c v := by
  refine ⟨c.interrupts[v], Vector.getElem?_eq_getElem hv, ?_⟩
  simp [priorityOf, hv]

theorem writeArray_eq {α : Type} {n : ℕ} (array : Vector α n) {index : ℕ} (h : index < n)
    (value : α) : writeArray array index value = some (array.set index value) := dif_pos h

/-- Inside the queue, both reads of an entry stay inside their arrays. -/
theorem entryAt_reads {c : InterruptController} (h : InBounds c) {i : ℕ}
    (hi : i < c.queueHeapSize) :
    ∃ priority vec : Byte, c.queueHeap[i]? = some vec ∧ c.interrupts[vec.toNat]? = some priority ∧
      entryAt c i = requestKey priority.toNat vec.toNat := by
  obtain ⟨vec, hvec, hv⟩ := getElem?_queueHeap c (hi.trans_le h.size_le)
  obtain ⟨priority, hpri, hp⟩ := getElem?_interrupts c (h.vecAt_lt hi)
  exact ⟨priority, vec, hvec, hv ▸ hpri, by rw [entryAt, hp, hv]⟩

theorem queueEntry_eq {c : InterruptController} (h : InBounds c) {i : ℕ}
    (hi : i < c.queueHeapSize) :
    ∃ priority vec : Byte, queueEntry c i = some (priority, vec) ∧
      entryAt c i = requestKey priority.toNat vec.toNat := by
  obtain ⟨priority, vec, hvec, hpri, hkey⟩ := entryAt_reads h hi
  exact ⟨priority, vec, by simp [queueEntry, hvec, hpri], hkey⟩

/-- The comparison every function of the queue makes, priority first and vector second. -/
theorem requestKey_lt_iff {p v p' v' : Byte} :
    requestKey p.toNat v.toNat < requestKey p'.toNat v'.toNat ↔
      if p = p' then v < v' else p < p' := by
  rw [requestKey, requestKey, Prod.Lex.toLex_lt_toLex]
  split_ifs with h
  · simp [h, BitVec.lt_def]
  · simp [BitVec.lt_def, mt BitVec.eq_of_toNat_eq h]

theorem interruptQueueShouldPercolateUp_eq {c : InterruptController} (h : InBounds c)
    {childI parentI : ℕ} (hc : childI < c.queueHeapSize) (hp : parentI < c.queueHeapSize) :
    interruptQueueShouldPercolateUp c childI parentI =
      some (decide (entryAt c parentI < entryAt c childI)) := by
  obtain ⟨cp, cv, hce, hck⟩ := queueEntry_eq h hc
  obtain ⟨pp, pv, hpe, hpk⟩ := queueEntry_eq h hp
  simp only [interruptQueueShouldPercolateUp, hce, hpe, hck, hpk, requestKey_lt_iff,
    Option.bind_eq_bind, Option.bind_some, eq_comm (a := pp)]
  split <;> rfl

theorem interruptQueueShouldPercolateDown_eq {c : InterruptController} (h : InBounds c)
    {parentI childI : ℕ} (hp : parentI < c.queueHeapSize) (hc : childI < c.queueHeapSize) :
    interruptQueueShouldPercolateDown c parentI childI =
      some (decide (entryAt c parentI < entryAt c childI)) := by
  obtain ⟨cp, cv, hce, hck⟩ := queueEntry_eq h hc
  obtain ⟨pp, pv, hpe, hpk⟩ := queueEntry_eq h hp
  simp only [interruptQueueShouldPercolateDown, hce, hpe, hck, hpk, requestKey_lt_iff,
    Option.bind_eq_bind, Option.bind_some]
  split <;> rfl

/-! ### Moving entries -/

/-- A swap inside the queue, as a swap of places. -/
theorem interruptQueueSwap_spec {c : InterruptController} (h : InBounds c) {i j : ℕ}
    (hi : i < c.queueHeapSize) (hj : j < c.queueHeapSize) :
    ∃ c', interruptQueueSwap c i j = some c' ∧ Rearranged c c' ∧
      entryAt c' = entryAt c ∘ Equiv.swap i j := by
  have hi' : i < 255 := hi.trans_le h.size_le
  have hj' : j < 255 := hj.trans_le h.size_le
  let c' : InterruptController :=
    { c with queueHeap := (c.queueHeap.set i c.queueHeap[j]).set j c.queueHeap[i] }
  have hvec : vecAt c' = vecAt c ∘ Equiv.swap i j := by
    funext k
    simp only [vecAt, Function.comp_apply, c', Vector.getElem?_set]
    rcases eq_or_ne k j with rfl | hkj
    · simp [hi']
    · rcases eq_or_ne k i with rfl | hki
      · simp [hkj.symm, hj']
      · simp [hkj.symm, hki.symm, Equiv.swap_apply_of_ne_of_ne hki hkj]
  refine ⟨c', ?_, ⟨rfl, rfl, ?_⟩, ?_⟩
  · simp [interruptQueueSwap, hi', hj', writeArray_eq, c']
  · rw [queued, hvec]
    exact contents_swap hi hj (vecAt c)
  · funext k
    simp only [entryAt, hvec, Function.comp_apply]
    rfl

/-- `max_child_index` at a place that has a child: a child whose entry no child exceeds. -/
theorem maxChildIndex_spec {c : InterruptController} (h : InBounds c) {i : ℕ}
    (hi : leftChildIndex i < c.queueHeapSize) :
    ∃ child, maxChildIndex c i = some child ∧ 0 < child ∧ child < c.queueHeapSize ∧
      parent child = i ∧
      ∀ j, 0 < j → j < c.queueHeapSize → parent j = i → entryAt c j ≤ entryAt c child := by
  rw [leftChildIndex] at hi
  have hleft : parent (2 * i + 1) = i := by unfold parent; omega
  have hright : parent (2 * i + 2) = i := by unfold parent; omega
  rcases Nat.lt_or_ge (2 * i + 2) c.queueHeapSize with hr | hsize
  · obtain ⟨lp, lv, hle, hlk⟩ := queueEntry_eq h hi
    obtain ⟨rp, rv, hre, hrk⟩ := queueEntry_eq h hr
    have hmax : interruptQueueMaxIndex c (2 * i + 1) (2 * i + 2) =
        some (if entryAt c (2 * i + 2) < entryAt c (2 * i + 1) then 2 * i + 1 else 2 * i + 2) := by
      simp only [interruptQueueMaxIndex, hle, hre, hlk, hrk, requestKey_lt_iff,
        Option.bind_eq_bind, Option.bind_some, eq_comm (a := rp)]
      split <;> rfl
    have hval : maxChildIndex c i = interruptQueueMaxIndex c (2 * i + 1) (2 * i + 2) :=
      if_neg (Nat.not_le.mpr hr)
    rw [hval, hmax]
    rcases lt_or_ge (entryAt c (2 * i + 2)) (entryAt c (2 * i + 1)) with hlt | hge
    · rw [if_pos hlt]
      refine ⟨2 * i + 1, rfl, by omega, hi, hleft, fun j hj hjn hp => ?_⟩
      rcases eq_child_of_parent hj hp with rfl | rfl
      · exact le_rfl
      · exact hlt.le
    · rw [if_neg (not_lt.mpr hge)]
      refine ⟨2 * i + 2, rfl, by omega, hr, hright, fun j hj hjn hp => ?_⟩
      rcases eq_child_of_parent hj hp with rfl | rfl
      · exact hge
      · exact le_rfl
  · -- the left child is the only one
    refine ⟨2 * i + 1, if_pos hsize, by omega, hi, hleft, fun j hj hjn hp => ?_⟩
    rcases eq_child_of_parent hj hp with rfl | rfl
    · exact le_rfl
    · omega

/-! ### The sifts -/

/-- **`interrupt_queue_percolate_up`** comes back, keeps the requests, and closes a hole. -/
theorem interruptQueuePercolateUp_spec {c : InterruptController} (h : InBounds c) {curI : ℕ}
    (hcur : curI < c.queueHeapSize) :
    ∃ c', interruptQueuePercolateUp c curI = some c' ∧ Rearranged c c' ∧
      (UpHole c.queueHeapSize (entryAt c) curI → HeapOrdered c.queueHeapSize (entryAt c')) := by
  induction curI using Nat.strongRec generalizing c with
  | ind curI ih =>
    rw [interruptQueuePercolateUp]
    rcases Nat.eq_zero_or_pos curI with rfl | hpos
    · exact ⟨c, by simp, Rearranged.refl c, fun hole => hole.close (Or.inl rfl)⟩
    · have hlt : parentIndex curI < curI := parentIndex_lt (Nat.ne_of_gt hpos)
      have hp : parentIndex curI < c.queueHeapSize := hlt.trans hcur
      rw [dif_pos (Nat.ne_of_gt hpos)]
      simp only [interruptQueueShouldPercolateUp_eq h hcur hp]
      rcases lt_or_ge (entryAt c (parentIndex curI)) (entryAt c curI) with hup | hstop
      · obtain ⟨c₁, hswap, hc₁, hentry⟩ := interruptQueueSwap_spec h hcur hp
        obtain ⟨c₂, hrest, hc₂, hheap⟩ := ih _ hlt (hc₁.inBounds h) (hc₁.size ▸ hp)
        refine ⟨c₂, ?_, hc₁.trans hc₂, fun hole => ?_⟩
        · simp [hup, hswap, hrest]
        · rw [← hc₁.size]
          apply hheap
          rw [hentry, hc₁.size]
          exact hole.swap hpos hcur hup.le
      · exact ⟨c, by simp [not_lt.mpr hstop], Rearranged.refl c,
          fun hole => hole.close (Or.inr hstop)⟩

/-- The loop of `interrupt_queue_percolate_down`, inside a queue or at a root past its end. -/
theorem interruptQueuePercolateDownLoop_spec (n : ℕ) {c : InterruptController} (h : InBounds c)
    {curI : ℕ} (hn : c.queueHeapSize - curI ≤ n) :
    ∃ c', interruptQueuePercolateDownLoop (lastParentIndex c.queueHeapSize) c curI = some c' ∧
      Rearranged c c' ∧
      (DownHole c.queueHeapSize (entryAt c) curI → HeapOrdered c.queueHeapSize (entryAt c')) := by
  induction n generalizing c curI with
  | zero =>
    rw [interruptQueuePercolateDownLoop, lastParentIndex]
    refine ⟨c, by rw [if_neg (by omega)]; rfl, Rearranged.refl c, fun hole => ?_⟩
    refine hole.close fun j hj hjn hp => ?_
    have hlt : parent j < j := parent_lt hj
    omega
  | succ n ih =>
    rw [interruptQueuePercolateDownLoop]
    by_cases hloop : (curI : ℤ) ≤ lastParentIndex c.queueHeapSize
    · have hleft : leftChildIndex curI < c.queueHeapSize := by
        rw [lastParentIndex] at hloop
        rw [leftChildIndex]
        omega
      have hcur : curI < c.queueHeapSize := by
        rw [leftChildIndex] at hleft
        omega
      obtain ⟨child, hchild, hpos, hsize, hparent, hmax⟩ := maxChildIndex_spec h hleft
      have hlt : curI < child := hparent ▸ parent_lt hpos
      rw [if_pos hloop]
      split
      case h_1 hnone => exact absurd (hchild.symm.trans hnone) (by simp)
      case h_2 child' hsome =>
        obtain rfl : child = child' := Option.some.inj (hchild.symm.trans hsome)
        simp only [interruptQueueShouldPercolateDown_eq h hcur hsize]
        rcases lt_or_ge (entryAt c curI) (entryAt c child) with hdown | hstop
        · obtain ⟨c₁, hswap, hc₁, hentry⟩ := interruptQueueSwap_spec h hcur hsize
          obtain ⟨c₂, hrest, hc₂, hheap⟩ :=
            ih (hc₁.inBounds h) (show c₁.queueHeapSize - child ≤ n by rw [hc₁.size]; omega)
          rw [hc₁.size] at hrest
          refine ⟨c₂, ?_, hc₁.trans hc₂, fun hole => ?_⟩
          · simp [hdown, hswap, hrest]
          · rw [← hc₁.size]
            apply hheap
            rw [hentry, hc₁.size]
            exact hole.swap hpos hsize hparent hdown.le hmax
        · refine ⟨c, by simp [not_lt.mpr hstop], Rearranged.refl c, fun hole => ?_⟩
          exact hole.close fun j hj hjn hp => (hmax j hj hjn hp).trans hstop
    · refine ⟨c, by rw [if_neg hloop]; rfl, Rearranged.refl c, fun hole => ?_⟩
      refine hole.close fun j hj hjn hp => ?_
      rw [lastParentIndex] at hloop
      rcases eq_child_of_parent hj hp with rfl | rfl <;> omega

/-- **`interrupt_queue_percolate_down`** comes back, keeps the requests, and closes a hole at the
root. -/
theorem interruptQueuePercolateDown_spec {c : InterruptController} (h : InBounds c) :
    ∃ c', interruptQueuePercolateDown c 0 = some c' ∧ Rearranged c c' ∧
      (DownHole c.queueHeapSize (entryAt c) 0 → HeapOrdered c.queueHeapSize (entryAt c')) :=
  interruptQueuePercolateDownLoop_spec (c.queueHeapSize - 0) h le_rfl

/-! ### The queue operations -/

/-- The entry at a place depends on the vector there and on its priority only. -/
theorem entryAt_congr {c c' : InterruptController} {i : ℕ} (hvec : vecAt c' i = vecAt c i)
    (hpri : priorityOf c' (vecAt c i) = priorityOf c (vecAt c i)) : entryAt c' i = entryAt c i := by
  simp only [entryAt]
  rw [hvec, hpri]

theorem interruptQueueEnqueue_spec {c : InterruptController} (h : InBounds c) {value : Byte}
    (hsize : c.queueHeapSize < 255) (hvalue : value.toNat < 255) :
    ∃ c', interruptQueueEnqueue c value = some c' ∧ c'.interrupts = c.interrupts ∧
      c'.queueHeapSize = c.queueHeapSize + 1 ∧ queued c' = value.toNat ::ₘ queued c ∧
      (HeapOrdered c.queueHeapSize (entryAt c) →
        HeapOrdered (c.queueHeapSize + 1) (entryAt c')) := by
  let c₁ : InterruptController :=
    { c with queueHeap := c.queueHeap.set c.queueHeapSize value
             queueHeapSize := c.queueHeapSize + 1 }
  have hlast : vecAt c₁ c.queueHeapSize = value.toNat := by simp [vecAt, c₁, hsize]
  have hold : ∀ i < c.queueHeapSize, vecAt c₁ i = vecAt c i := by
    intro i hi
    simp [vecAt, c₁, Nat.ne_of_gt hi]
  have hqueued : queued c₁ = value.toNat ::ₘ queued c := by
    simp only [queued]
    rw [show c₁.queueHeapSize = c.queueHeapSize + 1 from rfl, contents_succ, hlast,
      contents_congr hold]
  have h₁ : InBounds c₁ := by
    refine ⟨hsize, fun v hv => ?_⟩
    rw [hqueued, Multiset.mem_cons] at hv
    rcases hv with rfl | hv
    · exact hvalue
    · exact h.vec_lt v hv
  obtain ⟨c₂, hup, hc₂, hheap⟩ := interruptQueuePercolateUp_spec h₁ (Nat.lt_succ_self _)
  refine ⟨c₂, ?_, hc₂.interrupts, hc₂.size, hc₂.queued.trans hqueued, fun hord => hheap ?_⟩
  · simpa [interruptQueueEnqueue, writeArray_eq _ hsize] using hup
  · exact hord.upHole fun i hi => entryAt_congr (hold i hi) rfl

theorem interruptQueueDequeue_spec {c : InterruptController} (h : InBounds c)
    (hsize : 0 < c.queueHeapSize) :
    ∃ vec c', interruptQueueDequeue c = some (vec, c') ∧ vec.toNat = vecAt c 0 ∧
      c'.interrupts = c.interrupts ∧ c'.queueHeapSize = c.queueHeapSize - 1 ∧
      queued c = vec.toNat ::ₘ queued c' ∧
      (HeapOrdered c.queueHeapSize (entryAt c) →
        HeapOrdered (c.queueHeapSize - 1) (entryAt c')) := by
  have hle : c.queueHeapSize ≤ 255 := h.size_le
  obtain ⟨vec, hvec, hv⟩ := getElem?_queueHeap c (show 0 < 255 by omega)
  obtain ⟨last, hlast, hl⟩ := getElem?_queueHeap c (show c.queueHeapSize - 1 < 255 by omega)
  let c₁ : InterruptController :=
    { c with queueHeap := c.queueHeap.set 0 last, queueHeapSize := c.queueHeapSize - 1 }
  have hroot : vecAt c₁ 0 = vecAt c (c.queueHeapSize - 1) := by simp [vecAt, c₁, hlast]
  have hold : ∀ i, 0 < i → i < c.queueHeapSize - 1 → vecAt c₁ i = vecAt c i := by
    intro i hi _
    simp [vecAt, c₁, Nat.ne_of_lt hi]
  have hqueued : queued c = vec.toNat ::ₘ queued c₁ := by
    have hcons := contents_eq_cons_of_root hroot hold
    rw [Nat.sub_add_cancel hsize] at hcons
    rw [hv]
    exact hcons
  have h₁ : InBounds c₁ := by
    refine ⟨(Nat.sub_le _ _).trans hle, fun v hv' => h.vec_lt v ?_⟩
    rw [hqueued]
    exact Multiset.mem_cons_of_mem hv'
  obtain ⟨c₂, hdown, hc₂, hheap⟩ := interruptQueuePercolateDown_spec h₁
  refine ⟨vec, c₂, ?_, hv, hc₂.interrupts, hc₂.size, ?_, fun hord => hheap ?_⟩
  · simp only [interruptQueueDequeue, hvec, hlast, writeArray_eq _ (Nat.zero_lt_succ 254),
      Option.bind_eq_bind, Option.bind_some]
    change (interruptQueuePercolateDown c₁ 0).bind (fun c' => some (vec, c')) = some (vec, c₂)
    rw [hdown, Option.bind_some]
  · rw [hc₂.queued]
    exact hqueued
  · exact hord.downHole (Nat.sub_le _ _) fun i hpos hi => entryAt_congr (hold i hpos hi) rfl

/-! ### The controller's functions -/

/-- Writing one priority. -/
theorem priorityOf_set (c : InterruptController) {v : ℕ} (hv : v < 255) (p : Byte) (u : ℕ) :
    priorityOf { c with interrupts := c.interrupts.set v p } u =
      if u = v then p.toNat else priorityOf c u := by
  simp only [priorityOf]
  rcases eq_or_ne u v with rfl | hne
  · simp [hv]
  · simp [hne, hne.symm]

/-- An alert for a vector whose priority is not the sentinel changes nothing. -/
theorem interruptControllerAlert_of_pending {c : InterruptController} {vec : Byte}
    (priority : Byte) (hvec : vec.toNat < 255) (hpending : priorityOf c vec.toNat ≠ 255) :
    interruptControllerAlert c vec priority = some c := by
  obtain ⟨current, hcur, hp⟩ := getElem?_interrupts c hvec
  have hne : current ≠ impossiblePriority := by
    rintro rfl
    exact hpending (hp.symm.trans rfl)
  simp [interruptControllerAlert, hcur, hne]

/-- An alert for a vector whose priority is the sentinel records the priority and queues the
vector. -/
theorem interruptControllerAlert_of_idle {c : InterruptController} (h : InBounds c) {vec : Byte}
    (priority : Byte) (hvec : vec.toNat < 255) (hidle : priorityOf c vec.toNat = 255)
    (hsize : c.queueHeapSize < 255) :
    ∃ c', interruptControllerAlert c vec priority = some c' ∧
      (∀ u, priorityOf c' u = if u = vec.toNat then priority.toNat else priorityOf c u) ∧
      c'.queueHeapSize = c.queueHeapSize + 1 ∧ queued c' = vec.toNat ::ₘ queued c ∧
      (vec.toNat ∉ queued c → HeapOrdered c.queueHeapSize (entryAt c) →
        HeapOrdered (c.queueHeapSize + 1) (entryAt c')) := by
  obtain ⟨current, hcur, hp⟩ := getElem?_interrupts c hvec
  obtain rfl : current = impossiblePriority := BitVec.eq_of_toNat_eq (hp.trans hidle)
  let c₁ : InterruptController := { c with interrupts := c.interrupts.set vec.toNat priority }
  have h₁ : InBounds c₁ := ⟨h.size_le, h.vec_lt⟩
  obtain ⟨c₂, henq, hint, hsz, hq, hheap⟩ := interruptQueueEnqueue_spec h₁ hsize hvec
  have hpri : ∀ u, priorityOf c₁ u = if u = vec.toNat then priority.toNat else priorityOf c u :=
    priorityOf_set c hvec priority
  refine ⟨c₂, ?_, fun u => ?_, hsz, hq, fun hnot hord => hheap fun i hpos hi => ?_⟩
  · simp only [interruptControllerAlert, hcur, writeArray_eq _ hvec, Option.bind_eq_bind,
      Option.bind_some, if_pos]
    exact henq
  · rw [← hpri u]
    simp only [priorityOf]
    rw [hint]
  · -- no queued entry carries the priority that was written
    have hsame : ∀ j < c.queueHeapSize, entryAt c₁ j = entryAt c j := by
      intro j hj
      refine entryAt_congr rfl ((hpri _).trans (if_neg fun heq => hnot ?_))
      exact heq ▸ mem_contents.mpr ⟨j, hj, rfl⟩
    have hi' : i < c.queueHeapSize := hi
    rw [hsame i hi', hsame (parent i) ((parent_lt hpos).trans hi')]
    exact hord i hpos hi'

theorem interruptControllerTake_of_empty {c : InterruptController} (h : c.queueHeapSize = 0) :
    interruptControllerTake c = some c := by
  simp [interruptControllerTake, h]

/-- Taking from a non-empty queue removes the root and puts the sentinel back. -/
theorem interruptControllerTake_spec {c : InterruptController} (h : InBounds c)
    (hsize : 0 < c.queueHeapSize) :
    ∃ c', interruptControllerTake c = some c' ∧
      (∀ u, priorityOf c' u = if u = vecAt c 0 then 255 else priorityOf c u) ∧
      c'.queueHeapSize = c.queueHeapSize - 1 ∧ queued c = vecAt c 0 ::ₘ queued c' ∧
      ((queued c).Nodup → HeapOrdered c.queueHeapSize (entryAt c) →
        HeapOrdered (c.queueHeapSize - 1) (entryAt c')) := by
  obtain ⟨vec, c₁, hdeq, hv, hint, hsz, hq, hheap⟩ := interruptQueueDequeue_spec h hsize
  have hvec : vec.toNat < 255 := hv ▸ h.vecAt_lt hsize
  let c₂ : InterruptController :=
    { c₁ with interrupts := c₁.interrupts.set vec.toNat impossiblePriority }
  have hpri₁ : ∀ u, priorityOf c₁ u = priorityOf c u := by
    intro u
    simp only [priorityOf]
    rw [hint]
  have hpri : ∀ u, priorityOf c₂ u = if u = vecAt c 0 then 255 else priorityOf c u := by
    intro u
    rw [← hpri₁ u, ← hv]
    exact priorityOf_set c₁ hvec impossiblePriority u
  rw [hv] at hq
  refine ⟨c₂, ?_, hpri, hsz, hq, fun hnodup hord i hpos hi => ?_⟩
  · simp only [interruptControllerTake, if_neg (Nat.ne_of_gt hsize), hdeq, Option.bind_eq_bind,
      Option.bind_some, writeArray_eq _ hvec]
    rfl
  · -- the vector whose priority is reset is queued no more
    have hnot : vecAt c 0 ∉ queued c₁ := by
      rw [hq] at hnodup
      exact (Multiset.nodup_cons.mp hnodup).1
    have hsame : ∀ j < c₁.queueHeapSize, entryAt c₂ j = entryAt c₁ j := by
      intro j hj
      refine entryAt_congr rfl (((hpri _).trans (if_neg fun heq => hnot ?_)).trans (hpri₁ _).symm)
      exact heq ▸ mem_contents.mpr ⟨j, hj, rfl⟩
    rw [hsame i (hsz ▸ hi), hsame (parent i) (hsz ▸ (parent_lt hpos).trans hi)]
    exact hheap hord i hpos hi

/-- Peeking reports the root of a non-empty queue. -/
theorem interruptControllerPeek_eq {c : InterruptController} (h : InBounds c) :
    (c.queueHeapSize = 0 → interruptControllerPeek c = some none) ∧
    (0 < c.queueHeapSize → ∃ vec priority, interruptControllerPeek c = some (some (vec, priority)) ∧
      entryAt c 0 = requestKey priority.toNat vec.toNat) := by
  refine ⟨fun hzero => by simp [interruptControllerPeek, hzero], fun hpos => ?_⟩
  obtain ⟨priority, vec, hvec, hpri, hkey⟩ := entryAt_reads h hpos
  refine ⟨vec, priority, ?_, hkey⟩
  simp only [interruptControllerPeek, interruptQueuePeek, if_pos hpos, hvec, hpri,
    Option.bind_eq_bind, Option.bind_some]
  rfl

end Lc3Simulator
