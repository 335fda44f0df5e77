import Mathlib.Data.List.Perm.Basic
import Mathlib.Data.List.Pairwise
import Mathlib.Order.Defs.Unbundled

/-!
# Lookups up to an equivalence

A list of entries is searched for a key, where two keys may stand for the same one. If the keys
of the entries are pairwise inequivalent, the answer of a search says which entry is there and
does not depend on the order of the entries; adding, replacing and deleting an entry then act on
the answers as the update of a finite map at one class of keys.

## Main definitions

* `lookup` — the first entry whose key is equivalent to the given one
* `Distinct` — no two entries have equivalent keys

## Main results

* `lookup_eq_some_iff` — the answer is the only entry with an equivalent key
* `lookup_perm` — the order of the entries does not matter
* `lookup_cons`, `lookup_cons_of_not` — one entry more, at its own class and at the others
-/

namespace KeyedLookup

variable {κ ν : Type*} (r : κ → κ → Prop) (key : ν → κ)

/-- No two entries have equivalent keys. -/
def Distinct (l : List ν) : Prop := l.Pairwise fun x y => ¬ r (key x) (key y)

/-- The first entry whose key is equivalent to `k`. -/
def lookup [DecidableRel r] (l : List ν) (k : κ) : Option ν := l.find? fun x => r (key x) k

variable {r key} {l l' : List ν} {x y : ν} {k : κ}

/-! ### Distinct entries -/

/-- Inequivalence is symmetric, so that the order of distinct entries does not matter. -/
theorem Distinct.perm (hr : Equivalence r) (h : Distinct r key l) (hl : l.Perm l') :
    Distinct r key l' :=
  List.Pairwise.perm h hl fun hxy hyx => hxy (hr.symm hyx)

/-- Two entries of a distinct list that have equivalent keys are the same. -/
theorem Distinct.eq_of_mem (hr : Equivalence r) (h : Distinct r key l) (hx : x ∈ l) (hy : y ∈ l)
    (hxy : r (key x) (key y)) : x = y := by
  have hsymm : Std.Symm fun x y => ¬ r (key x) (key y) := ⟨fun _ _ h hyx => h (hr.symm hyx)⟩
  by_contra hne
  exact List.Pairwise.forall h hx hy hne hxy

/-- An entry may take the place of another one of its class. -/
theorem Distinct.replace (hr : Equivalence r) (h : Distinct r key (x :: l))
    (hxy : r (key x) (key y)) : Distinct r key (y :: l) := by
  obtain ⟨hx, hl⟩ := List.pairwise_cons.mp h
  exact List.pairwise_cons.mpr ⟨fun z hz hyz => hx z hz (hr.trans hxy hyz), hl⟩

/-- An entry of a new class may join. -/
theorem Distinct.cons (hr : Equivalence r) (h : Distinct r key l)
    (hnew : ∀ y ∈ l, ¬ r (key y) (key x)) : Distinct r key (x :: l) :=
  List.pairwise_cons.mpr ⟨fun y hy hxy => hnew y hy (hr.symm hxy), h⟩

/-! ### Searching them -/

variable [DecidableRel r]

theorem lookup_eq_none_iff : lookup r key l k = none ↔ ∀ x ∈ l, ¬ r (key x) k := by
  simp [lookup]

/-- What a search finds is there. -/
theorem mem_of_lookup (h : lookup r key l k = some x) : x ∈ l ∧ r (key x) k :=
  ⟨List.mem_of_find?_eq_some h, by simpa using List.find?_some h⟩

/-- **Lookup in a distinct list.** The answer is the entry with an equivalent key. -/
theorem lookup_eq_some_iff (hr : Equivalence r) (h : Distinct r key l) :
    lookup r key l k = some x ↔ x ∈ l ∧ r (key x) k := by
  constructor
  · exact mem_of_lookup
  · rintro ⟨hx, hxk⟩
    cases hfound : lookup r key l k with
    | none => exact absurd hxk (lookup_eq_none_iff.mp hfound x hx)
    | some y =>
      obtain ⟨hy, hyk⟩ := mem_of_lookup hfound
      rw [h.eq_of_mem hr hx hy (hr.trans hxk (hr.symm hyk))]

/-- The order of distinct entries does not matter for a search. -/
theorem lookup_perm (hr : Equivalence r) (h : Distinct r key l) (hl : l.Perm l') :
    lookup r key l k = lookup r key l' k := by
  apply Option.ext
  intro x
  rw [lookup_eq_some_iff hr h, lookup_eq_some_iff hr (h.perm hr hl), hl.mem_iff]

/-- A search may be restricted to entries that include all those with an equivalent key. -/
theorem lookup_eq_of_subset (hr : Equivalence r) (h : Distinct r key l) (h' : Distinct r key l')
    (hsub : ∀ x ∈ l', x ∈ l) (hall : ∀ x ∈ l, r (key x) k → x ∈ l') :
    lookup r key l' k = lookup r key l k := by
  apply Option.ext
  intro x
  rw [lookup_eq_some_iff hr h, lookup_eq_some_iff hr h']
  exact and_congr_left fun hxk => ⟨hsub x, fun hx => hall x hx hxk⟩

theorem lookup_congr (hr : Equivalence r) {k' : κ} (hk : r k k') :
    lookup r key l k = lookup r key l k' := by
  have hiff (x : ν) : r (key x) k ↔ r (key x) k' :=
    ⟨fun h => hr.trans h hk, fun h => hr.trans h (hr.symm hk)⟩
  simp only [lookup, hiff]

theorem lookup_cons (h : r (key x) k) : lookup r key (x :: l) k = some x := by
  simp [lookup, h]

theorem lookup_cons_of_not (h : ¬ r (key x) k) : lookup r key (x :: l) k = lookup r key l k := by
  simp [lookup, h]

/-- Without the entry of its class a distinct list has none of that class. -/
theorem lookup_tail (hr : Equivalence r) (h : Distinct r key (x :: l)) (hk : r (key x) k) :
    lookup r key l k = none :=
  lookup_eq_none_iff.mpr fun _ hy hyk =>
    List.rel_of_pairwise_cons h hy (hr.trans hk (hr.symm hyk))

end KeyedLookup
