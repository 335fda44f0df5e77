import Mathlib.Data.List.Perm.Basic
import Mathlib.Logic.Function.Basic

/-!
# Arrays of buckets

Entries are kept in numbered buckets. What matters is that the first `n` buckets hold the entries,
each entry in the bucket of its index, and which entries there are as a multiset. Editing one
bucket edits the multiset by the same amount, and distributing entries over empty buckets gives
the same entries back.

## Main definitions

* `contents` — the entries of the first buckets, bucket by bucket
* `place` — an entry added at the end of its bucket
* `Placed` — every entry is in the bucket of its index
* `contentsFrom`, `nextIndex` — the entries from a bucket on, and the next bucket that has any

## Main results

* `contents_focus` — the entries of one bucket, and how the others are kept when it changes
* `contents_distribute`, `placed_distribute` — entries distributed over the buckets
* `contentsFrom_nextIndex` — a walk may skip to the next bucket that has entries
-/

namespace Buckets

variable {ν : Type*}

/-- The entries of the first `n` buckets. -/
def contents (n : ℕ) (b : ℕ → List ν) : List ν := (List.range n).flatMap b

/-- `x` at the end of bucket number `index x`. -/
def place (index : ν → ℕ) (b : ℕ → List ν) (x : ν) : ℕ → List ν :=
  Function.update b (index x) (b (index x) ++ [x])

/-- Every entry is in the bucket of its index. -/
def Placed (index : ν → ℕ) (b : ℕ → List ν) : Prop := ∀ i, ∀ x ∈ b i, index x = i

variable {n : ℕ} {b : ℕ → List ν} {index : ν → ℕ}

@[simp] theorem contents_empty (n : ℕ) : contents n (fun _ => ([] : List ν)) = [] := by
  simp [contents]

theorem mem_contents {x : ν} : x ∈ contents n b ↔ ∃ i < n, x ∈ b i := by
  simp [contents]

/-- If no entry has an index beyond the buckets, the buckets in use hold everything. -/
theorem Placed.mem_contents_iff (h : Placed index b) (hindex : ∀ x, index x < n) {x : ν} :
    x ∈ contents n b ↔ x ∈ b (index x) := by
  rw [mem_contents]
  constructor
  · rintro ⟨i, -, hx⟩
    exact (h i x hx).symm ▸ hx
  · exact fun hx => ⟨index x, hindex x, hx⟩

/-- **One bucket in focus.** The entries are those of the bucket and some others, which stay when
the bucket changes. -/
theorem contents_focus {i : ℕ} (hi : i < n) (b : ℕ → List ν) :
    ∃ others, (contents n b).Perm (b i ++ others) ∧
      ∀ l, (contents n (Function.update b i l)).Perm (l ++ others) := by
  obtain ⟨pre, post, hsplit⟩ := List.append_of_mem (List.mem_range.mpr hi)
  have hnodup : (pre ++ i :: post).Nodup := hsplit ▸ List.nodup_range
  obtain ⟨-, hipost, hdisj⟩ := List.nodup_append.mp hnodup
  have hpre : ∀ j ∈ pre, j ≠ i := fun j hj => hdisj j hj i List.mem_cons_self
  have hpost : ∀ j ∈ post, j ≠ i := by
    rintro j hj rfl
    exact (List.nodup_cons.mp hipost).1 hj
  have hfront (l : List ν) (c : ℕ → List ν) (hc : c i = l) :
      (contents n c).Perm (l ++ (pre.flatMap c ++ post.flatMap c)) := by
    rw [contents, hsplit, List.flatMap_append, List.flatMap_cons, hc, ← List.append_assoc,
      ← List.append_assoc]
    exact List.perm_append_comm.append_right _
  refine ⟨pre.flatMap b ++ post.flatMap b, hfront _ b rfl, fun l => ?_⟩
  have hkeep (js : List ℕ) (hjs : ∀ j ∈ js, j ≠ i) :
      js.flatMap (Function.update b i l) = js.flatMap b :=
    List.flatMap_congr fun j hj => Function.update_of_ne (hjs j hj) l b
  have h := hfront l (Function.update b i l) (Function.update_self i l b)
  rwa [hkeep pre hpre, hkeep post hpost] at h

theorem contents_place {x : ν} (hx : index x < n) :
    (contents n (place index b x)).Perm (x :: contents n b) := by
  obtain ⟨others, hb, hupdate⟩ := contents_focus hx b
  calc (contents n (place index b x)).Perm (b (index x) ++ [x] ++ others) := hupdate _
    _ |>.Perm (x :: (b (index x) ++ others)) := by
      rw [List.append_assoc]; exact List.perm_middle
    _ |>.Perm (x :: contents n b) := hb.symm.cons x

theorem placed_empty (index : ν → ℕ) : Placed index fun _ => [] := fun _ x hx => by cases hx

theorem placed_place (h : Placed index b) (x : ν) : Placed index (place index b x) := by
  intro i y hy
  by_cases hi : i = index x
  · subst hi
    rw [place, Function.update_self, List.mem_append, List.mem_singleton] at hy
    rcases hy with hy | rfl
    · exact h _ y hy
    · rfl
  · rw [place, Function.update_of_ne hi] at hy
    exact h i y hy

/-- A bucket may be given any entries of its index. -/
theorem Placed.update (h : Placed index b) {i : ℕ} {l : List ν} (hl : ∀ x ∈ l, index x = i) :
    Placed index (Function.update b i l) := by
  intro j y hy
  by_cases hj : j = i
  · subst hj
    rw [Function.update_self] at hy
    exact hl y hy
  · rw [Function.update_of_ne hj] at hy
    exact h j y hy

/-! ### Distributing entries -/

theorem contents_distribute (l : List ν) (hl : ∀ x ∈ l, index x < n) (b : ℕ → List ν) :
    (contents n (l.foldl (place index) b)).Perm (l ++ contents n b) := by
  induction l generalizing b with
  | nil => exact List.Perm.refl _
  | cons x l ih =>
    have hrest := ih (fun y hy => hl y (List.mem_cons_of_mem x hy)) (place index b x)
    have hx : (contents n (place index b x)).Perm (x :: contents n b) :=
      contents_place (hl x List.mem_cons_self)
    exact hrest.trans ((hx.append_left l).trans List.perm_middle)

theorem placed_distribute (h : Placed index b) (l : List ν) :
    Placed index (l.foldl (place index) b) := by
  induction l generalizing b with
  | nil => exact h
  | cons x l ih => exact ih (placed_place h x)

/-- Distributing bucket by bucket distributes the contents. -/
theorem foldl_contents (n : ℕ) (old b : ℕ → List ν) :
    (List.range n).foldl (fun b i => (old i).foldl (place index) b) b =
      (contents n old).foldl (place index) b := by
  rw [contents, List.foldl_flatMap]

/-! ### Walking over the buckets -/

/-- The entries of the buckets from number `i` on. -/
def contentsFrom (n i : ℕ) (b : ℕ → List ν) : List ν := (List.range' i (n - i)).flatMap b

/-- The first bucket after number `i` that has entries, and otherwise a number beyond the last. -/
def nextIndex (n : ℕ) (b : ℕ → List ν) (i : ℕ) : ℕ :=
  ((List.range' (i + 1) (n - (i + 1))).find? fun j => !(b j).isEmpty).getD (max (i + 1) n)

theorem contentsFrom_zero (n : ℕ) (b : ℕ → List ν) : contentsFrom n 0 b = contents n b := by
  rw [contentsFrom, contents, Nat.sub_zero, List.range_eq_range']

theorem contentsFrom_of_le {i : ℕ} (hi : n ≤ i) (b : ℕ → List ν) : contentsFrom n i b = [] := by
  rw [contentsFrom, Nat.sub_eq_zero_of_le hi]
  rfl

theorem contentsFrom_of_lt {i : ℕ} (hi : i < n) (b : ℕ → List ν) :
    contentsFrom n i b = b i ++ contentsFrom n (i + 1) b := by
  have hsplit : n - i = n - (i + 1) + 1 := by omega
  rw [contentsFrom, hsplit, List.range'_succ, List.flatMap_cons, contentsFrom]

theorem nextIndex_of_le {i : ℕ} (hi : n ≤ i + 1) (b : ℕ → List ν) : nextIndex n b i = i + 1 := by
  rw [nextIndex, Nat.sub_eq_zero_of_le hi]
  exact Nat.max_eq_left hi

theorem nextIndex_of_lt {i : ℕ} (hi : i + 1 < n) (b : ℕ → List ν) :
    nextIndex n b i = if b (i + 1) = [] then nextIndex n b (i + 1) else i + 1 := by
  have hsplit : n - (i + 1) = n - (i + 1 + 1) + 1 := by omega
  rw [nextIndex, hsplit, List.range'_succ, List.find?_cons]
  by_cases hempty : b (i + 1) = []
  · have hmax : max (i + 1) n = max (i + 1 + 1) n := by omega
    simp [hempty, nextIndex, hmax]
  · have hentries : (!(b (i + 1)).isEmpty) = true := by simpa using hempty
    rw [hentries, if_neg hempty]
    rfl

theorem lt_nextIndex (n : ℕ) (b : ℕ → List ν) (i : ℕ) : i < nextIndex n b i := by
  generalize hm : n - i = m
  induction m generalizing i with
  | zero =>
    rw [nextIndex_of_le (by omega)]
    exact Nat.lt_succ_self i
  | succ m ih =>
    by_cases hi : i + 1 < n
    · have hrest := ih (i + 1) (by omega)
      rw [nextIndex_of_lt hi]
      split <;> omega
    · rw [nextIndex_of_le (by omega)]
      exact Nat.lt_succ_self i

/-- **Skipping empty buckets.** From the next bucket that has entries on, the entries are those
after bucket `i`. -/
theorem contentsFrom_nextIndex (n : ℕ) (b : ℕ → List ν) (i : ℕ) :
    contentsFrom n (nextIndex n b i) b = contentsFrom n (i + 1) b := by
  generalize hm : n - i = m
  induction m generalizing i with
  | zero => rw [nextIndex_of_le (by omega)]
  | succ m ih =>
    by_cases hi : i + 1 < n
    · rw [nextIndex_of_lt hi]
      split
      · rename_i hempty
        rw [ih (i + 1) (by omega), contentsFrom_of_lt hi, hempty, List.nil_append]
      · rfl
    · rw [nextIndex_of_le (by omega)]

/-- A next bucket that exists has entries. -/
theorem nextIndex_ne_nil {i : ℕ} (hlt : nextIndex n b i < n) : b (nextIndex n b i) ≠ [] := by
  generalize hm : n - i = m
  induction m generalizing i with
  | zero =>
    rw [nextIndex_of_le (by omega)] at hlt
    omega
  | succ m ih =>
    by_cases hi : i + 1 < n
    · rw [nextIndex_of_lt hi] at hlt ⊢
      split
      · rename_i hempty
        rw [if_pos hempty] at hlt
        exact ih hlt (by omega)
      · assumption
    · rw [nextIndex_of_le (by omega)] at hlt
      omega

end Buckets
