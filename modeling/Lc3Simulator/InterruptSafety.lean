import Lc3Simulator.PriorityMap

/-!
# Which alerts keep the arrays safe

`interrupts[]` has 255 elements and vectors run to 255; and an alert with the sentinel priority
255 leaves its vector looking idle, so that a second alert queues it again. The host forwards
both kinds of alert unchecked.

These are the only two ways to leave the arrays or to overflow the queue: this file says, over
whole runs of calls with arbitrary vectors and priorities, that a run is safe exactly when none
of its alerts is of either kind.

## Main definitions

* `ArraysSafe` — every vector at most once in the queue, and the queue inside its array
* `AlertSafe` — the condition on a call and the state it finds

## Main results

* `interruptController_safe_iff` — a run is safe exactly when every alert meets the condition
* `interruptController_unsafe` — one run of each kind that does not
-/

namespace Lc3Simulator

open BinaryHeap Transition

/-- Every vector occurs at most once in the queue, and the queue does not outgrow its array. That
no index leaves its array is the definedness of the call that uses it. -/
def ArraysSafe (c : InterruptController) : Prop :=
  (queued c).Nodup ∧ c.queueHeapSize ≤ 255

/-- An alert names a vector that `interrupts[]` has a place for, and does not find that vector
queued with the sentinel as its priority. -/
def AlertSafe : InterruptCall → InterruptController → Prop
  | .alert vec _, c =>
    vec.toNat < 255 ∧ (vec.toNat ∈ queued c → priorityOf c vec.toNat ≠ 255)
  | .peek, _ => True
  | .take, _ => True

/-- The part of the invariant that survives alerts with the sentinel priority. -/
structure QueueSafe (c : InterruptController) : Prop where
  inBounds : InBounds c
  nodup : (queued c).Nodup

theorem QueueInvariant.queueSafe {c : InterruptController} (h : QueueInvariant c) : QueueSafe c :=
  ⟨h.inBounds, h.nodup⟩

/-- An alert that meets the condition comes back and keeps the queue safe. -/
theorem interruptControllerAlert_queueSafe {c : InterruptController} (h : QueueSafe c)
    {vec : Byte} (priority : Byte) (hsafe : AlertSafe (.alert vec priority) c) :
    ∃ c', interruptControllerAlert c vec priority = some c' ∧ QueueSafe c' := by
  obtain ⟨hvec, hqueued⟩ := hsafe
  by_cases hidle : priorityOf c vec.toNat = 255
  · have hnot : vec.toNat ∉ queued c := fun hmem => hqueued hmem hidle
    have hsize : c.queueHeapSize < 255 := size_lt_of_not_mem h.inBounds h.nodup hvec hnot
    obtain ⟨c', halert, -, hsize', hq', -⟩ :=
      interruptControllerAlert_of_idle h.inBounds priority hvec hidle hsize
    refine ⟨c', halert, ⟨hsize' ▸ hsize, fun v hv => ?_⟩, ?_⟩
    · rw [hq', Multiset.mem_cons] at hv
      exact hv.elim (fun heq => heq ▸ hvec) (h.inBounds.vec_lt v)
    · rw [hq']
      exact Multiset.nodup_cons.mpr ⟨hnot, h.nodup⟩
  · exact ⟨c, interruptControllerAlert_of_pending priority hvec hidle, h⟩

theorem interruptControllerTake_queueSafe {c : InterruptController} (h : QueueSafe c) :
    ∃ c', interruptControllerTake c = some c' ∧ QueueSafe c' := by
  rcases Nat.eq_zero_or_pos c.queueHeapSize with hzero | hpos
  · exact ⟨c, interruptControllerTake_of_empty hzero, h⟩
  · obtain ⟨c', htake, -, hsize', hq', -⟩ := interruptControllerTake_spec h.inBounds hpos
    refine ⟨c', htake, ⟨?_, fun v hv => ?_⟩, ?_⟩
    · rw [hsize']
      exact (Nat.sub_le _ _).trans h.inBounds.size_le
    · exact h.inBounds.vec_lt v (hq' ▸ Multiset.mem_cons_of_mem hv)
    · have hn := h.nodup
      rw [hq'] at hn
      exact (Multiset.nodup_cons.mp hn).2

theorem interruptControllerPeek_defined {c : InterruptController} (h : InBounds c) :
    ∃ r, interruptControllerPeek c = some r := by
  obtain ⟨hempty, hsome⟩ := interruptControllerPeek_eq h
  rcases Nat.eq_zero_or_pos c.queueHeapSize with hzero | hpos
  · exact ⟨none, hempty hzero⟩
  · obtain ⟨vec, priority, hpeek, -⟩ := hsome hpos
    exact ⟨_, hpeek⟩

theorem interruptCall_queueSafe (call : InterruptCall) (c : InterruptController)
    (h : QueueSafe c) (hsafe : AlertSafe call c) :
    ∃ out c', interruptCall call c = some (out, c') ∧ QueueSafe c' := by
  cases call with
  | alert vec priority =>
    obtain ⟨c', halert, hc'⟩ := interruptControllerAlert_queueSafe h priority hsafe
    exact ⟨⊥, c', by rw [interruptCall, halert]; rfl, hc'⟩
  | peek =>
    obtain ⟨r, hpeek⟩ := interruptControllerPeek_defined h.inBounds
    exact ⟨peekResult r, c, by rw [interruptCall, hpeek]; rfl, h⟩
  | take =>
    obtain ⟨c', htake, hc'⟩ := interruptControllerTake_queueSafe h
    exact ⟨⊥, c', by rw [interruptCall, htake]; rfl, hc'⟩

/-- An alert that does not meet the condition indexes past `interrupts[]`, past `queue_heap[]`,
or queues its vector a second time. -/
theorem interruptCall_unsafe (call : InterruptCall) (c : InterruptController)
    (out : WithBot (ℕ ×ₗ ℕ)) (c' : InterruptController) (h : QueueSafe c)
    (hbad : ¬ AlertSafe call c) (hcall : interruptCall call c = some (out, c')) :
    ¬ ArraysSafe c' := by
  cases call with
  | peek => exact absurd trivial hbad
  | take => exact absurd trivial hbad
  | alert vec priority =>
    obtain ⟨c₁, halert, hc₁⟩ := Option.map_eq_some_iff.mp hcall
    obtain ⟨-, rfl⟩ := Prod.mk.inj hc₁
    by_cases hvec : vec.toNat < 255
    · have hmem : vec.toNat ∈ queued c := by
        by_contra hnot
        exact hbad ⟨hvec, fun hmem => absurd hmem hnot⟩
      have hidle : priorityOf c vec.toNat = 255 := by
        by_contra hne
        exact hbad ⟨hvec, fun _ => hne⟩
      obtain ⟨current, hcur, hp⟩ := getElem?_interrupts c hvec
      obtain rfl : current = impossiblePriority := BitVec.eq_of_toNat_eq (hp.trans hidle)
      rcases Nat.lt_or_ge c.queueHeapSize 255 with hsize | hfull
      · obtain ⟨c₂, halert₂, -, -, hq, -⟩ :=
          interruptControllerAlert_of_idle h.inBounds priority hvec hidle hsize
        obtain rfl : c₁ = c₂ := Option.some.inj (halert.symm.trans halert₂)
        rintro ⟨hnodup, -⟩
        rw [hq] at hnodup
        exact (Multiset.nodup_cons.mp hnodup).1 hmem
      · -- the queue is full, so that the write behind its end is caught
        have hwrite : writeArray c.queueHeap c.queueHeapSize vec = none :=
          dif_neg (Nat.not_lt.mpr hfull)
        simp [interruptControllerAlert, hcur, writeArray_eq _ hvec, interruptQueueEnqueue,
          hwrite] at halert
    · have hnone : c.interrupts[vec.toNat]? = none :=
        Vector.getElem?_eq_none (Nat.not_lt.mp hvec)
      simp [interruptControllerAlert, hnone] at halert

/-! ### Every sequence of calls -/

/-- The condition decides the safety of a run from any safe state. -/
theorem safe_iff_along_alertSafe {calls : List InterruptCall} {c : InterruptController}
    (h : QueueSafe c) :
    Safe interruptCall ArraysSafe calls c ↔ Along interruptCall AlertSafe calls c :=
  safe_iff_along (fun _ hc => ⟨hc.nodup, hc.inBounds.size_le⟩) interruptCall_queueSafe
    interruptCall_unsafe h

/-- **When the arrays stay safe.** Over any sequence of calls, with any vectors and priorities,
no index leaves its array, no vector is queued twice and the queue never outgrows its array,
exactly when no alert is for vector 255 and no alert finds its vector queued with the sentinel
as its priority. -/
theorem interruptController_safe_iff (calls : List InterruptCall) :
    Safe interruptCall ArraysSafe calls interruptControllerNew ↔
      Along interruptCall AlertSafe calls interruptControllerNew :=
  safe_iff_along_alertSafe queueInvariant_new.queueSafe

/-- One alert for vector 255 reads `interrupts[255]`; two alerts with priority 255 queue their
vector twice. -/
theorem interruptController_unsafe :
    ¬ Safe interruptCall ArraysSafe [.alert 255 4] interruptControllerNew ∧
      ¬ Safe interruptCall ArraysSafe [.alert 5 255, .alert 5 255] interruptControllerNew := by
  constructor
  · rw [safe_iff_along_alertSafe queueInvariant_new.queueSafe]
    rintro ⟨⟨hvec, -⟩, -⟩
    exact absurd hvec (by decide)
  · rw [safe_iff_along_alertSafe queueInvariant_new.queueSafe]
    rintro ⟨-, hrest⟩
    obtain ⟨c, halert, hpri, -, hq, -⟩ := interruptControllerAlert_of_idle
      queueInvariant_new.inBounds 255 (show (5 : Byte).toNat < 255 by decide) (by decide)
      (by decide)
    obtain ⟨⟨-, hsafe⟩, -⟩ := hrest ⊥ c (by rw [interruptCall, halert]; rfl)
    refine hsafe (hq ▸ Multiset.mem_cons_self _ _) ?_
    rw [hpri, if_pos rfl]
    rfl

end Lc3Simulator
