import Lc3Simulator.Library.SortSearch
import Mathlib.Data.List.Pairwise

/-!
# Tables of disjoint intervals

A table maps points to entries by listing closed intervals. Kept in the order of their lower ends
and pairwise disjoint, the intervals can be searched by bisection, and a scan for an overlap may
stop at the first interval that starts too late.

The two ends of an entry are functions of the entry, so that an entry may carry anything else.

## Main definitions

* `Contains`, `Overlap` — a point in an interval, and two intervals in the order that a
  comparison of ends gives
* `Separated` — every interval is proper and ends before the next one starts
* `locate` — the comparison of a point with an interval, for a search

## Main results

* `separated_insert` — a proper interval that overlaps none may join a table
* `Separated.eq_of_contains` — a point lies in at most one interval
* `Separated.bsearch_locate` — a search in a table finds exactly the interval of a point
-/

namespace IntervalTable

variable {ε α : Type*} [LinearOrder α] (low high : ε → α)

/-- The point lies in the interval. -/
def Contains (e : ε) (p : α) : Prop := low e ≤ p ∧ p ≤ high e

instance (e : ε) (p : α) : Decidable (Contains low high e p) :=
  inferInstanceAs (Decidable (low e ≤ p ∧ p ≤ high e))

/-- Each interval starts no later than the other ends. For proper intervals this says that they
have a point in common. -/
def Overlap (e f : ε) : Prop := low f ≤ high e ∧ low e ≤ high f

/-- In the order of the lower ends. -/
def Sorted (l : List ε) : Prop := l.Pairwise fun e f => low e ≤ low f

/-- The shape of a table. -/
structure Separated (l : List ε) : Prop where
  proper : ∀ e ∈ l, low e ≤ high e
  apart : l.Pairwise fun e f => high e < low f

variable {low high} {l : List ε}

theorem Overlap.symm {e f : ε} (h : Overlap low high e f) : Overlap low high f e := ⟨h.2, h.1⟩

/-- Two intervals with a common point overlap. -/
theorem Contains.overlap {e f : ε} {p : α} (he : Contains low high e p)
    (hf : Contains low high f p) : Overlap low high e f :=
  ⟨hf.1.trans he.2, he.1.trans hf.2⟩

theorem separated_nil : Separated low high [] := ⟨by simp, List.Pairwise.nil⟩

/-- A sorted list of proper intervals that do not overlap is a table. -/
theorem separated_of_sorted (hsorted : Sorted low l) (hproper : ∀ e ∈ l, low e ≤ high e)
    (hdisj : l.Pairwise fun e f => ¬ Overlap low high e f) : Separated low high l := by
  refine ⟨hproper, (hsorted.and hdisj).imp_of_mem ?_⟩
  intro e f _ hf ⟨hle, hnot⟩
  by_contra hge
  exact hnot ⟨not_lt.mp hge, hle.trans (hproper f hf)⟩

/-! ### What a table says -/

theorem Separated.strict (h : Separated low high l) : l.Pairwise fun e f => low e < low f :=
  h.apart.imp_of_mem fun he _ hlt => (h.proper _ he).trans_lt hlt

theorem Separated.not_overlap (h : Separated low high l) :
    l.Pairwise fun e f => ¬ Overlap low high e f :=
  h.apart.imp fun hlt hover => absurd hover.1 (not_le.mpr hlt)

theorem Separated.disjoint (h : Separated low high l) :
    l.Pairwise fun e f => ∀ p, ¬ (Contains low high e p ∧ Contains low high f p) :=
  h.not_overlap.imp fun hnot _ hp => hnot (hp.1.overlap hp.2)

/-- A point lies in at most one interval of a table. -/
theorem Separated.eq_of_contains (h : Separated low high l) {e f : ε} {p : α} (he : e ∈ l)
    (hf : f ∈ l) (hep : Contains low high e p) (hfp : Contains low high f p) : e = f := by
  by_contra hne
  have hsymm : Std.Symm fun e f => ¬ Overlap low high e f := ⟨fun _ _ hnot hover =>
    hnot hover.symm⟩
  exact h.not_overlap.forall he hf hne (hep.overlap hfp)

/-- A proper interval that overlaps no interval of a table may join it. -/
theorem separated_insert (h : Separated low high l) {e : ε} (hproper : low e ≤ high e)
    (hfree : ∀ f ∈ l, ¬ Overlap low high f e) {l' : List ε} (hperm : l'.Perm (l ++ [e]))
    (hsorted : Sorted low l') : Separated low high l' := by
  have hsymm : ∀ {f g : ε}, ¬ Overlap low high f g → ¬ Overlap low high g f :=
    fun hnot hover => hnot hover.symm
  refine separated_of_sorted hsorted (fun f hf => ?_) ((hperm.pairwise_iff hsymm).mpr ?_)
  · rcases List.mem_append.mp (hperm.mem_iff.mp hf) with hf | hf
    · exact h.proper f hf
    · rwa [List.mem_singleton.mp hf]
  · refine List.pairwise_append.mpr ⟨h.not_overlap, List.pairwise_singleton _ _, ?_⟩
    intro f hf g hg
    rw [List.mem_singleton.mp hg]
    exact hfree f hf

/-! ### Searching a table -/

variable (low high) in
/-- Negative when the point lies below the interval, positive when it lies above. -/
def locate (p : α) (e : ε) : ℤ := if p < low e then -1 else if high e < p then 1 else 0

theorem locate_eq_zero_iff {e : ε} {p : α} : locate low high p e = 0 ↔ Contains low high e p := by
  rw [locate, Contains]
  by_cases hlow : p < low e
  · simp [hlow]
  · by_cases hhigh : high e < p
    · simp [hlow, hhigh]
    · simp [hlow, hhigh, not_lt.mp hlow, not_lt.mp hhigh]

/-- Along a table a point lies first above, then in, and then below the intervals. -/
theorem Separated.partitioned (h : Separated low high l) (p : α) :
    Partitioned (locate low high p) l := by
  refine h.apart.imp_of_mem ?_
  intro e f he hf hlt
  have hstart : low e < low f := (h.proper e he).trans_lt hlt
  simp only [locate]
  by_cases hhigh : high e < p
  · rw [if_neg (not_lt.mpr ((h.proper e he).trans hhigh.le)), if_pos hhigh]
    split <;> [decide; split <;> decide]
  · -- the point lies in or below `e`, and so below `f`
    rw [if_neg hhigh, if_pos ((not_lt.mp hhigh).trans_lt hlt)]
    split <;> decide

/-- A search in a table finds exactly the interval of a point. -/
theorem Separated.bsearch_locate {ε : Type*} {low high : ε → α} {l : List ε}
    (h : Separated low high l) (lib : SortSearch ε) {e : ε} {p : α} :
    lib.bsearch (locate low high p) l = some e ↔ e ∈ l ∧ Contains low high e p := by
  have huniq : ∀ a ∈ l, ∀ b ∈ l, locate low high p a = 0 → locate low high p b = 0 → a = b :=
    fun a ha b hb hpa hpb =>
      h.eq_of_contains ha hb (locate_eq_zero_iff.mp hpa) (locate_eq_zero_iff.mp hpb)
  rw [lib.bsearch_eq_some_iff (h.partitioned p) huniq, locate_eq_zero_iff]

end IntervalTable
