import Mathlib.Data.Int.Notation
import Mathlib.Data.Nat.Notation
import Mathlib.Data.List.Sort

/-!
# Sorting and searching through a comparison function

The sort and the binary search of the C library take a comparison function that returns a
negative, zero or positive number. Its standard says what they do and not how: the sort returns
an ordered rearrangement, and the search returns some matching element whenever the array is
partitioned into elements below the key, matching it and above it. Which element the search
returns on an array that is not partitioned, if any, is up to the implementation, except that it
matches.

A `SortSearch` is a pair of functions with these promises. What is proved from them holds of every
such library.

## Main definitions

* `Consistent` — comparison functions that a sort accepts
* `Partitioned` — arrays on which a search is complete
* `SortSearch` — a sort and a search that keep the promises
* `SortSearch.bisecting` — one implementation: a stable sort, and a search that probes the middle

## Main results

* `SortSearch.bsearch_eq_some_iff` — a search on a partitioned array with at most one match
-/

universe u

/-- A comparison function orders its arguments: the sign tells which of two elements comes first,
transitively. -/
structure Consistent {α : Type u} (compar : α → α → ℤ) : Prop where
  total : ∀ a b, compar a b ≤ 0 ∨ compar b a ≤ 0
  trans : ∀ a b c, compar a b ≤ 0 → compar b c ≤ 0 → compar a c ≤ 0

/-- From left to right: elements that the key is above, elements it matches, elements it is
below. -/
def Partitioned {α : Type u} (compar : α → ℤ) (l : List α) : Prop :=
  l.Pairwise fun a b => (compar b).sign ≤ (compar a).sign

/-- A sort and a search. `bsearch` receives its comparison function with the key already
supplied. -/
structure SortSearch (α : Type u) where
  qsort : (α → α → ℤ) → List α → List α
  bsearch : (α → ℤ) → List α → Option α
  qsort_perm : ∀ {compar : α → α → ℤ}, Consistent compar → ∀ l, (qsort compar l).Perm l
  qsort_ordered : ∀ {compar : α → α → ℤ}, Consistent compar → ∀ l,
    (qsort compar l).Pairwise fun a b => compar a b ≤ 0
  bsearch_matches : ∀ {compar : α → ℤ} {l : List α} {a : α}, bsearch compar l = some a →
    a ∈ l ∧ compar a = 0
  bsearch_complete : ∀ {compar : α → ℤ} {l : List α} {a : α}, Partitioned compar l → a ∈ l →
    compar a = 0 → bsearch compar l ≠ none

namespace SortSearch

variable {α : Type u}

/-- On a partitioned array in which at most one element matches, a search finds exactly it. -/
theorem bsearch_eq_some_iff (lib : SortSearch α) {compar : α → ℤ} {l : List α}
    (hpart : Partitioned compar l)
    (huniq : ∀ a ∈ l, ∀ b ∈ l, compar a = 0 → compar b = 0 → a = b) {a : α} :
    lib.bsearch compar l = some a ↔ a ∈ l ∧ compar a = 0 := by
  refine ⟨lib.bsearch_matches, fun ⟨hmem, hzero⟩ => ?_⟩
  obtain ⟨b, hb⟩ := Option.ne_none_iff_exists'.mp (lib.bsearch_complete hpart hmem hzero)
  obtain ⟨hbmem, hbzero⟩ := lib.bsearch_matches hb
  rw [hb, huniq a hmem b hbmem hzero hbzero]

/-! ### One implementation -/

/-- Probe the middle of `[lo, hi)` until an element matches or the interval is empty. Every probe
shortens the interval, so that its length bounds the number of probes. -/
def bisect (compar : α → ℤ) (l : List α) : ℕ → ℕ → ℕ → Option α
  | 0, _, _ => none
  | fuel + 1, lo, hi =>
    if lo < hi then
      match l[(lo + hi) / 2]? with
      | none => none
      | some a =>
        if compar a < 0 then bisect compar l fuel lo ((lo + hi) / 2)
        else if 0 < compar a then bisect compar l fuel ((lo + hi) / 2 + 1) hi
        else some a
    else none

theorem bisect_matches {compar : α → ℤ} {l : List α} {a : α} (fuel lo hi : ℕ)
    (h : bisect compar l fuel lo hi = some a) : a ∈ l ∧ compar a = 0 := by
  induction fuel generalizing lo hi with
  | zero => cases h
  | succ fuel ih =>
    rw [bisect] at h
    by_cases hlt : lo < hi
    · rw [if_pos hlt] at h
      cases hget : l[(lo + hi) / 2]? with
      | none => simp [hget] at h
      | some b =>
        simp only [hget] at h
        by_cases hneg : compar b < 0
        · exact ih _ _ (by rwa [if_pos hneg] at h)
        · by_cases hpos : 0 < compar b
          · exact ih _ _ (by rwa [if_neg hneg, if_pos hpos] at h)
          · rw [if_neg hneg, if_neg hpos] at h
            obtain rfl := Option.some.inj h
            exact ⟨List.mem_of_getElem? hget, by omega⟩
    · rw [if_neg hlt] at h
      cases h

/-- The loop invariant is that a match lies in the interval: a probe that the key is below cuts
off elements the key is below as well. -/
theorem bisect_complete {compar : α → ℤ} {l : List α} (hpart : Partitioned compar l)
    (fuel lo hi : ℕ) (hfuel : hi - lo ≤ fuel) (hhi : hi ≤ l.length) {j : ℕ} {a : α}
    (hj : l[j]? = some a) (hzero : compar a = 0) (hlo : lo ≤ j) (hjhi : j < hi) :
    bisect compar l fuel lo hi ≠ none := by
  have hsign : ∀ (i k : ℕ) (b c : α), i < k → l[i]? = some b → l[k]? = some c →
      (compar c).sign ≤ (compar b).sign := by
    intro i k b c hik hb hc
    obtain ⟨hi', rfl⟩ := List.getElem?_eq_some_iff.mp hb
    obtain ⟨hk', rfl⟩ := List.getElem?_eq_some_iff.mp hc
    exact List.pairwise_iff_getElem.mp hpart i k hi' hk' hik
  induction fuel generalizing lo hi with
  | zero => exact absurd hfuel (by omega)
  | succ fuel ih =>
    have hlt : lo < hi := by omega
    have hmid : (lo + hi) / 2 < l.length := by omega
    have hget : l[(lo + hi) / 2]? = some l[(lo + hi) / 2] := List.getElem?_eq_getElem hmid
    rw [bisect, if_pos hlt]
    simp only [hget]
    generalize hb : l[(lo + hi) / 2] = b at hget
    by_cases hneg : compar b < 0
    · rw [if_pos hneg]
      have hleft : j < (lo + hi) / 2 := by
        by_contra hge
        rcases Nat.eq_or_lt_of_le (Nat.not_lt.mp hge) with heq | hlt'
        · obtain rfl : b = a := Option.some.inj (hget.symm.trans (heq ▸ hj))
          omega
        · have := hsign _ _ _ _ hlt' hget hj
          rw [hzero, Int.sign_zero, Int.sign_eq_neg_one_of_neg hneg] at this
          omega
      exact ih lo _ (by omega) (by omega) hlo hleft
    · by_cases hpos : 0 < compar b
      · rw [if_neg hneg, if_pos hpos]
        have hright : (lo + hi) / 2 + 1 ≤ j := by
          by_contra hle
          rcases Nat.eq_or_lt_of_le (show j ≤ (lo + hi) / 2 by omega) with heq | hlt'
          · obtain rfl : b = a := Option.some.inj (hget.symm.trans (heq ▸ hj))
            omega
          · have := hsign _ _ _ _ hlt' hj hget
            rw [hzero, Int.sign_zero, Int.sign_eq_one_of_pos hpos] at this
            omega
        exact ih _ hi (by omega) hhi hright hjhi
      · rw [if_neg hneg, if_neg hpos]
        exact Option.some_ne_none b

/-- A stable sort and a search by bisection. -/
def bisecting (α : Type u) : SortSearch α where
  qsort compar l := l.insertionSort fun a b => compar a b ≤ 0
  bsearch compar l := bisect compar l l.length 0 l.length
  qsort_perm _ l := List.perm_insertionSort _ l
  qsort_ordered {compar} h l := by
    have : Std.Total fun a b => compar a b ≤ 0 := ⟨h.total⟩
    have : IsTrans α fun a b => compar a b ≤ 0 := ⟨h.trans⟩
    exact List.pairwise_insertionSort _ l
  bsearch_matches h := bisect_matches _ _ _ h
  bsearch_complete {compar} {l} {a} hpart hmem hzero := by
    obtain ⟨j, hj, hget⟩ := List.mem_iff_getElem.mp hmem
    exact bisect_complete hpart l.length 0 l.length (Nat.sub_le _ _) le_rfl
      (List.getElem?_eq_some_iff.mpr ⟨hj, hget⟩) hzero (Nat.zero_le _) hj

end SortSearch
