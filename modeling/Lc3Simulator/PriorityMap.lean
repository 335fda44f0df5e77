import Lc3Simulator.InterruptQueue
import Lc3Simulator.Library.Transition
import Mathlib.Data.Finset.Max

/-!
# The interrupt controller as a priority map

What the controller is for: a set of pending requests, at most one for each vector, from which
the greatest by priority and then vector is served first. `Requests` is that set with its three
operations, and the controller refines it as long as no alert uses vector 255 or the sentinel
priority 255.

## Main definitions

* `Requests` — the abstract state, with `alert`, `greatest` and `take`
* `interruptCall`, `Requests.call` — the calls of the controller, concrete and abstract
* `pending` — the requests a controller holds
* `QueueInvariant` — the invariant of every state the calls reach

## Main results

* `interruptController_refines` — the refinement
-/

namespace Lc3Simulator

open BinaryHeap Transition

/-! ### The abstract controller -/

/-- Pending requests, as (priority, vector) pairs in lexicographic order. -/
abbrev Requests := Finset (ℕ ×ₗ ℕ)

namespace Requests

/-- Some request for the vector is pending. -/
def Has (s : Requests) (vec : ℕ) : Prop := ∃ r ∈ s, (ofLex r).2 = vec

instance (s : Requests) (vec : ℕ) : Decidable (s.Has vec) :=
  inferInstanceAs (Decidable (∃ r ∈ s, (ofLex r).2 = vec))

/-- An alert adds its request only if the vector is not pending yet. -/
def alert (s : Requests) (vec priority : ℕ) : Requests :=
  if s.Has vec then s else insert (requestKey priority vec) s

/-- The greatest request, `⊥` when there is none. -/
def greatest (s : Requests) : WithBot (ℕ ×ₗ ℕ) := s.max

/-- Remove the greatest request, if there is one. -/
def take (s : Requests) : Requests := s.filter fun r => (r : WithBot (ℕ ×ₗ ℕ)) ≠ s.greatest

end Requests

/-! ### Calls -/

/-- A call of the controller's interface. -/
inductive InterruptCall
  | alert (vec priority : Byte)
  | peek
  | take
  deriving DecidableEq, Repr

/-- The request that `interrupt_controller_peek` stores through its pointers. -/
def peekResult : Option (Byte × Byte) → WithBot (ℕ ×ₗ ℕ)
  | none => ⊥
  | some (vec, priority) => (requestKey priority.toNat vec.toNat : ℕ ×ₗ ℕ)

/-- One call. Only `peek` has a result. -/
def interruptCall : InterruptCall → InterruptController →
    Option (WithBot (ℕ ×ₗ ℕ) × InterruptController)
  | .alert vec priority, c => (interruptControllerAlert c vec priority).map fun c' => (⊥, c')
  | .peek, c => (interruptControllerPeek c).map fun r => (peekResult r, c)
  | .take, c => (interruptControllerTake c).map fun c' => (⊥, c')

/-- The same call on the abstract controller. -/
def Requests.call : InterruptCall → Requests → WithBot (ℕ ×ₗ ℕ) × Requests
  | .alert vec priority, s => (⊥, s.alert vec.toNat priority.toNat)
  | .peek, s => (s.greatest, s)
  | .take, s => (⊥, s.take)

/-- Vectors and priorities in `0..254`. -/
def InterruptCall.InRange : InterruptCall → Prop
  | .alert vec priority => vec.toNat ≤ 254 ∧ priority.toNat ≤ 254
  | .peek => True
  | .take => True

instance : DecidablePred InterruptCall.InRange
  | .alert _ _ => inferInstanceAs (Decidable (_ ∧ _))
  | .peek => inferInstanceAs (Decidable True)
  | .take => inferInstanceAs (Decidable True)

/-! ### The invariant -/

/-- The requests a controller holds: the queued vectors with their priorities. -/
def pending (c : InterruptController) : Requests :=
  (queued c).toFinset.image fun v => requestKey (priorityOf c v) v

/-- What every reachable controller satisfies. -/
structure QueueInvariant (c : InterruptController) : Prop where
  inBounds : InBounds c
  nodup : (queued c).Nodup
  ordered : HeapOrdered c.queueHeapSize (entryAt c)
  queued_iff : ∀ v < 255, v ∈ queued c ↔ priorityOf c v ≠ 255

theorem queueInvariant_new : QueueInvariant interruptControllerNew where
  inBounds := ⟨Nat.zero_le _, by simp [queued, interruptControllerNew, contents]⟩
  nodup := by simp [queued, interruptControllerNew, contents]
  ordered := fun i _ hi => absurd hi (Nat.not_lt_zero i)
  queued_iff := by
    intro v hv
    simp [queued, interruptControllerNew, contents, priorityOf, hv, impossiblePriority]

theorem requestKey_injective {p v p' v' : ℕ} (h : requestKey p v = requestKey p' v') :
    p = p' ∧ v = v' := Prod.mk.inj (toLex.injective h)

theorem mem_pending {c : InterruptController} {r : ℕ ×ₗ ℕ} :
    r ∈ pending c ↔ ∃ v ∈ queued c, requestKey (priorityOf c v) v = r := by
  simp [pending]

theorem has_pending_iff {c : InterruptController} {v : ℕ} :
    (pending c).Has v ↔ v ∈ queued c := by
  constructor
  · rintro ⟨r, hr, rfl⟩
    obtain ⟨u, hu, rfl⟩ := mem_pending.mp hr
    exact hu
  · intro hv
    exact ⟨_, mem_pending.mpr ⟨v, hv, rfl⟩, rfl⟩

theorem card_pending {c : InterruptController} (h : (queued c).Nodup) :
    (pending c).card = c.queueHeapSize := by
  rw [pending]
  rw [Finset.card_image_of_injective _ fun u v huv => (requestKey_injective huv).2,
    Multiset.toFinset_card_of_nodup h, queued, card_contents]

/-- A vector that is not queued leaves room in the queue: there are only 255 vectors. -/
theorem size_lt_of_not_mem {c : InterruptController} (h : InBounds c) (hnodup : (queued c).Nodup)
    {v : ℕ} (hv : v < 255) (hnot : v ∉ queued c) : c.queueHeapSize < 255 := by
  have hsub : insert v (queued c).toFinset ⊆ Finset.range 255 := by
    intro u hu
    rw [Finset.mem_insert, Multiset.mem_toFinset] at hu
    rcases hu with rfl | hu
    · exact Finset.mem_range.mpr hv
    · exact Finset.mem_range.mpr (h.vec_lt u hu)
  have hcard := Finset.card_le_card hsub
  rw [Finset.card_insert_of_notMem (by simpa using hnot),
    Multiset.toFinset_card_of_nodup hnodup, queued, card_contents, Finset.card_range] at hcard
  omega

/-- The root is the greatest pending request. -/
theorem greatest_pending {c : InterruptController} (h : QueueInvariant c)
    (hsize : 0 < c.queueHeapSize) : (pending c).greatest = (entryAt c 0 : ℕ ×ₗ ℕ) := by
  have hmem : entryAt c 0 ∈ pending c :=
    mem_pending.mpr ⟨vecAt c 0, mem_contents.mpr ⟨0, hsize, rfl⟩, rfl⟩
  refine le_antisymm (Finset.max_le fun r hr => ?_) (Finset.le_max hmem)
  obtain ⟨v, hv, rfl⟩ := mem_pending.mp hr
  obtain ⟨i, hi, rfl⟩ := mem_contents.mp hv
  exact WithBot.coe_le_coe.mpr (h.ordered.le_root hi)

theorem pending_eq_empty {c : InterruptController} (hsize : c.queueHeapSize = 0) :
    pending c = ∅ := by
  simp [pending, queued, contents, hsize]

/-! ### One call -/

theorem interruptControllerAlert_refines {c : InterruptController} (h : QueueInvariant c)
    {vec priority : Byte} (hvec : vec.toNat < 255) (hpri : priority.toNat < 255) :
    ∃ c', interruptControllerAlert c vec priority = some c' ∧ QueueInvariant c' ∧
      pending c' = (pending c).alert vec.toNat priority.toNat := by
  have hhas : (pending c).Has vec.toNat ↔ priorityOf c vec.toNat ≠ 255 :=
    has_pending_iff.trans (h.queued_iff vec.toNat hvec)
  by_cases hidle : priorityOf c vec.toNat = 255
  · have hnot : vec.toNat ∉ queued c := fun hmem => (h.queued_iff vec.toNat hvec).mp hmem hidle
    obtain ⟨c', halert, hpri', hsize', hq', hord'⟩ := interruptControllerAlert_of_idle h.inBounds
      priority hvec hidle (size_lt_of_not_mem h.inBounds h.nodup hvec hnot)
    refine ⟨c', halert, ⟨⟨?_, ?_⟩, ?_, ?_, ?_⟩, ?_⟩
    · rw [hsize']
      exact size_lt_of_not_mem h.inBounds h.nodup hvec hnot
    · intro v hv
      rw [hq', Multiset.mem_cons] at hv
      exact hv.elim (fun heq => heq ▸ hvec) (h.inBounds.vec_lt v)
    · rw [hq']
      exact Multiset.nodup_cons.mpr ⟨hnot, h.nodup⟩
    · rw [hsize']
      exact hord' hnot h.ordered
    · intro v hv
      rw [hq', hpri' v, Multiset.mem_cons, h.queued_iff v hv]
      split_ifs with heq
      · exact iff_of_true (Or.inl heq) (Nat.ne_of_lt hpri)
      · exact or_iff_right heq
    · rw [Requests.alert, if_neg (fun hmem => hhas.mp hmem hidle)]
      rw [pending, hq', Multiset.toFinset_cons, Finset.image_insert, hpri', if_pos rfl]
      refine congrArg _ (Finset.image_congr fun v hv => ?_)
      have hne : v ≠ vec.toNat := by
        rintro rfl
        exact hnot (Multiset.mem_toFinset.mp hv)
      simp only [hpri' v, if_neg hne]
  · exact ⟨c, interruptControllerAlert_of_pending priority hvec hidle, h,
      (if_pos (hhas.mpr hidle)).symm⟩

theorem interruptControllerTake_refines {c : InterruptController} (h : QueueInvariant c) :
    ∃ c', interruptControllerTake c = some c' ∧ QueueInvariant c' ∧
      pending c' = (pending c).take := by
  rcases Nat.eq_zero_or_pos c.queueHeapSize with hzero | hpos
  · refine ⟨c, interruptControllerTake_of_empty hzero, h, ?_⟩
    rw [pending_eq_empty hzero]
    rfl
  · obtain ⟨c', htake, hpri', hsize', hq', hord'⟩ := interruptControllerTake_spec h.inBounds hpos
    have hnodup : vecAt c 0 ∉ queued c' ∧ (queued c').Nodup := by
      have hn := h.nodup
      rw [hq'] at hn
      exact Multiset.nodup_cons.mp hn
    refine ⟨c', htake, ⟨⟨?_, fun v hv => ?_⟩, hnodup.2, ?_, fun v hv => ?_⟩, ?_⟩
    · rw [hsize']
      exact (Nat.sub_le _ _).trans h.inBounds.size_le
    · exact h.inBounds.vec_lt v (hq' ▸ Multiset.mem_cons_of_mem hv)
    · rw [hsize']
      exact hord' h.nodup h.ordered
    · have hold := h.queued_iff v hv
      rw [hq', Multiset.mem_cons] at hold
      rw [hpri' v]
      split_ifs with heq
      · exact iff_of_false (fun hmem => hnodup.1 (heq ▸ hmem)) (fun hne => hne rfl)
      · rw [← hold]
        exact (or_iff_right heq).symm
    · ext r
      rw [Requests.take, Finset.mem_filter, greatest_pending h hpos, mem_pending, mem_pending]
      constructor
      · rintro ⟨v, hv, rfl⟩
        have hne : v ≠ vecAt c 0 := fun heq => hnodup.1 (heq ▸ hv)
        rw [hpri' v, if_neg hne]
        refine ⟨⟨v, hq' ▸ Multiset.mem_cons_of_mem hv, rfl⟩, fun heq => hne ?_⟩
        exact (requestKey_injective (WithBot.coe_injective heq)).2
      · rintro ⟨⟨v, hv, rfl⟩, hne⟩
        have hroot : v ≠ vecAt c 0 := by
          rintro rfl
          exact hne rfl
        rw [hq', Multiset.mem_cons] at hv
        refine ⟨v, hv.resolve_left hroot, ?_⟩
        rw [hpri' v, if_neg hroot]

theorem interruptControllerPeek_refines {c : InterruptController} (h : QueueInvariant c) :
    ∃ r, interruptControllerPeek c = some r ∧ peekResult r = (pending c).greatest := by
  obtain ⟨hempty, hsome⟩ := interruptControllerPeek_eq h.inBounds
  rcases Nat.eq_zero_or_pos c.queueHeapSize with hzero | hpos
  · refine ⟨none, hempty hzero, ?_⟩
    rw [pending_eq_empty hzero]
    rfl
  · obtain ⟨vec, priority, hpeek, hkey⟩ := hsome hpos
    refine ⟨some (vec, priority), hpeek, ?_⟩
    rw [greatest_pending h hpos, hkey]
    rfl

/-- After an alert a request for its vector is pending, and otherwise the same ones. -/
theorem Requests.has_alert {s : Requests} {vec priority v : ℕ} :
    (s.alert vec priority).Has v ↔ s.Has v ∨ v = vec := by
  rw [Requests.alert]
  by_cases hvec : s.Has vec
  · rw [if_pos hvec]
    exact (or_iff_left_of_imp fun h => h ▸ hvec).symm
  · rw [if_neg hvec]
    constructor
    · rintro ⟨r, hr, rfl⟩
      rcases Finset.mem_insert.mp hr with rfl | hr
      · exact Or.inr rfl
      · exact Or.inl ⟨r, hr, rfl⟩
    · rintro (⟨r, hr, rfl⟩ | rfl)
      · exact ⟨r, Finset.mem_insert_of_mem hr, rfl⟩
      · exact ⟨_, Finset.mem_insert_self _ _, rfl⟩

/-- A vector has one request at most. -/
theorem pending_unique {c : InterruptController} {r r' : ℕ ×ₗ ℕ} (hr : r ∈ pending c)
    (hr' : r' ∈ pending c) (h : (ofLex r).2 = (ofLex r').2) : r = r' := by
  obtain ⟨v, -, rfl⟩ := mem_pending.mp hr
  obtain ⟨v', -, rfl⟩ := mem_pending.mp hr'
  obtain rfl : v = v' := h
  rfl

/-- The request that is peeked at is the greatest, and taking removes it and no other. -/
theorem interruptControllerTake_served {c : InterruptController} (h : QueueInvariant c)
    {vec priority : Byte} (hpeek : interruptControllerPeek c = some (some (vec, priority))) :
    (pending c).greatest = (requestKey priority.toNat vec.toNat : ℕ ×ₗ ℕ) ∧
      ∃ c', interruptControllerTake c = some c' ∧ QueueInvariant c' ∧
        (∀ r, r ∈ pending c' ↔ r ∈ pending c ∧ r ≠ requestKey priority.toNat vec.toNat) ∧
        ∀ v, (pending c').Has v ↔ (pending c).Has v ∧ v ≠ vec.toNat := by
  obtain ⟨r, hr, hgreatest⟩ := interruptControllerPeek_refines h
  obtain rfl := Option.some.inj (hpeek.symm.trans hr)
  have hmem : requestKey priority.toNat vec.toNat ∈ pending c :=
    Finset.mem_of_max hgreatest.symm
  obtain ⟨c', htake, hinv, hpending⟩ := interruptControllerTake_refines h
  have hiff : ∀ r, r ∈ pending c' ↔ r ∈ pending c ∧ r ≠ requestKey priority.toNat vec.toNat := by
    intro r
    rw [hpending, Requests.take, Finset.mem_filter, ← hgreatest, peekResult, ne_eq,
      WithBot.coe_inj]
  refine ⟨hgreatest.symm, c', htake, hinv, hiff, fun v => ⟨?_, ?_⟩⟩
  · rintro ⟨r, hr, rfl⟩
    obtain ⟨hold, hne⟩ := (hiff r).mp hr
    exact ⟨⟨r, hold, rfl⟩, fun hvec => hne (pending_unique hold hmem hvec)⟩
  · rintro ⟨⟨r, hr, rfl⟩, hne⟩
    exact ⟨r, (hiff r).mpr ⟨hr, fun heq => hne (heq ▸ rfl)⟩, rfl⟩

/-- One call in range is the abstract call. -/
theorem interruptCall_refines (call : InterruptCall) (c : InterruptController)
    (hcall : call.InRange) (h : QueueInvariant c) :
    ∃ c', interruptCall call c = some ((Requests.call call (pending c)).1, c') ∧
      QueueInvariant c' ∧ pending c' = (Requests.call call (pending c)).2 := by
  cases call with
  | alert vec priority =>
    obtain ⟨c', halert, hinv, hpending⟩ := interruptControllerAlert_refines h
      (Nat.lt_succ_of_le hcall.1) (Nat.lt_succ_of_le hcall.2)
    exact ⟨c', by simp [interruptCall, halert, Requests.call], hinv, hpending⟩
  | peek =>
    obtain ⟨r, hpeek, hr⟩ := interruptControllerPeek_refines h
    exact ⟨c, by simp [interruptCall, hpeek, hr, Requests.call], h, rfl⟩
  | take =>
    obtain ⟨c', htake, hinv, hpending⟩ := interruptControllerTake_refines h
    exact ⟨c', by simp [interruptCall, htake, Requests.call], hinv, hpending⟩

/-! ### Every sequence of calls -/

/-- **The controller refines a priority map.** For every sequence of calls with vectors and
priorities in `0..254`, the controller answers as the abstract one does and holds exactly its
requests; the size of the queue is their number, and `interrupts` records exactly their
priorities. -/
theorem interruptController_refines {calls : List InterruptCall}
    (hcalls : ∀ call ∈ calls, call.InRange) :
    ∃ c, run interruptCall calls interruptControllerNew =
        some ((Spec.run Requests.call calls ∅).1, c) ∧
      pending c = (Spec.run Requests.call calls ∅).2 ∧
      c.queueHeapSize = (pending c).card ∧
      ∀ v < 255, (priorityOf c v ≠ 255 ↔ requestKey (priorityOf c v) v ∈ pending c) := by
  obtain ⟨c, hrun, hinv, hpending⟩ :=
    run_refines interruptCall_refines hcalls queueInvariant_new
  have hnew : pending interruptControllerNew = ∅ := pending_eq_empty rfl
  rw [hnew] at hrun hpending
  refine ⟨c, hrun, hpending, (card_pending hinv.nodup).symm, fun v hv => ?_⟩
  rw [← hinv.queued_iff v hv, mem_pending]
  constructor
  · intro hmem
    exact ⟨v, hmem, rfl⟩
  · rintro ⟨u, hu, heq⟩
    exact (requestKey_injective heq).2 ▸ hu

/-- Two vectors of one priority, a repeated alert, and the order in which they are served. -/
theorem interruptController_refines_run :
    ∃ c, run interruptCall [.alert 3 4, .alert 9 4, .alert 3 7, .peek, .take, .peek]
        interruptControllerNew =
        some (([⊥, ⊥, ⊥, ↑(requestKey 4 9), ⊥, ↑(requestKey 4 3)] : List (WithBot (ℕ ×ₗ ℕ))), c) ∧
      pending c = {requestKey 4 3} := by
  have hcalls : ∀ call ∈ ([.alert 3 4, .alert 9 4, .alert 3 7, .peek, .take, .peek] :
      List InterruptCall), call.InRange := by decide
  obtain ⟨c, hrun, hpending, -⟩ := interruptController_refines hcalls
  refine ⟨c, hrun.trans (congrArg (fun outs => some (outs, c)) ?_), hpending.trans ?_⟩
  · decide
  · decide

end Lc3Simulator
