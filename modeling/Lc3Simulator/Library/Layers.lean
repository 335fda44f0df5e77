import Lc3Simulator.Library.KeyedLookup
import Mathlib.Data.List.Basic

/-!
# Layers of entries

Entries with keys come in layers, and an entry of a later layer hides those with an equivalent key
in earlier layers. Who searches the layers from the last to the first, and takes what is found
first, finds just the entries that are not hidden.

## Main definitions

* `Visible` — the entry is in a layer, and later layers have none with an equivalent key

## Main results

* `lookup_append` — searching two lists one after the other
* `lookup_layers_iff` — searching the layers from the last to the first
-/

namespace KeyedLookup

variable {κ ν : Type*} {r : κ → κ → Prop} {key : ν → κ}

/-- The entry is in one of the layers, and no later layer has one with an equivalent key. -/
def Visible (r : κ → κ → Prop) (key : ν → κ) (layers : List (List ν)) (x : ν) : Prop :=
  ∃ earlier layer later, layers = earlier ++ layer :: later ∧ x ∈ layer ∧
    ∀ layer' ∈ later, ∀ y ∈ layer', ¬ r (key y) (key x)

theorem visible_nil (x : ν) : ¬ Visible r key [] x := by
  rintro ⟨earlier, layer, later, hsplit, -⟩
  cases earlier <;> cases hsplit

theorem visible_cons {layer : List ν} {layers : List (List ν)} {x : ν} :
    Visible r key (layer :: layers) x ↔ Visible r key layers x ∨
      x ∈ layer ∧ ∀ layer' ∈ layers, ∀ y ∈ layer', ¬ r (key y) (key x) := by
  constructor
  · rintro ⟨earlier, found, later, hsplit, hx, hlater⟩
    cases earlier with
    | nil =>
      obtain ⟨rfl, rfl⟩ := List.cons.inj hsplit
      exact Or.inr ⟨hx, hlater⟩
    | cons _ earlier =>
      obtain ⟨-, rfl⟩ := List.cons.inj hsplit
      exact Or.inl ⟨earlier, found, later, rfl, hx, hlater⟩
  · rintro (⟨earlier, found, later, rfl, hx, hlater⟩ | ⟨hx, hlater⟩)
    · exact ⟨layer :: earlier, found, later, rfl, hx, hlater⟩
    · exact ⟨[], layer, layers, rfl, hx, hlater⟩

/-- Layers that are given by the elements of a list. -/
theorem visible_map_iff {ι : Type*} {f : ι → List ν} {sources : List ι} {x : ν} :
    Visible r key (sources.map f) x ↔ ∃ earlier source later,
      sources = earlier ++ source :: later ∧ x ∈ f source ∧
        ∀ source' ∈ later, ∀ y ∈ f source', ¬ r (key y) (key x) := by
  constructor
  · rintro ⟨earlier, layer, later, hsplit, hx, hlater⟩
    obtain ⟨earlier', rest, rfl, -, hrest⟩ := List.map_eq_append_iff.mp hsplit
    obtain ⟨source, later', rfl, rfl, rfl⟩ := List.map_eq_cons_iff.mp hrest
    exact ⟨earlier', source, later', rfl, hx,
      fun source' hsource' => hlater _ (List.mem_map_of_mem hsource')⟩
  · rintro ⟨earlier, source, later, rfl, hx, hlater⟩
    exact ⟨earlier.map f, f source, later.map f, List.map_append, hx,
      List.forall_mem_map.mpr hlater⟩

/-- A key that some layer has is the key of a visible entry. -/
theorem exists_visible (hr : Equivalence r) {layers : List (List ν)} {layer : List ν} {x : ν}
    (hlayer : layer ∈ layers) (hx : x ∈ layer) :
    ∃ y, Visible r key layers y ∧ r (key y) (key x) := by
  induction layers generalizing layer x with
  | nil => cases hlayer
  | cons first layers ih =>
    by_cases hlater : ∃ layer' ∈ layers, ∃ y ∈ layer', r (key y) (key x)
    · obtain ⟨layer', hlayer', y, hy, hyx⟩ := hlater
      obtain ⟨z, hz, hzy⟩ := ih hlayer' hy
      exact ⟨z, visible_cons.mpr (Or.inl hz), hr.trans hzy hyx⟩
    · push Not at hlater
      obtain rfl : layer = first := by
        refine (List.mem_cons.mp hlayer).resolve_right fun hmem => ?_
        exact hlater layer hmem x hx (hr.refl _)
      exact ⟨x, visible_cons.mpr (Or.inr ⟨hx, hlater⟩), hr.refl _⟩

variable [DecidableRel r]

theorem lookup_append (l l' : List ν) (k : κ) :
    lookup r key (l ++ l') k = (lookup r key l k).or (lookup r key l' k) :=
  List.find?_append

/-- **Searching the layers** from the last to the first finds the visible entries. -/
theorem lookup_layers_iff (hr : Equivalence r) {layers : List (List ν)}
    (hdistinct : ∀ layer ∈ layers, Distinct r key layer) {x : ν} :
    lookup r key layers.reverse.flatten (key x) = some x ↔ Visible r key layers x := by
  induction layers with
  | nil => exact iff_of_false (by simp [lookup]) (visible_nil x)
  | cons layer layers ih =>
    rw [List.forall_mem_cons] at hdistinct
    have hnone : lookup r key layers.reverse.flatten (key x) = none ↔
        ∀ layer' ∈ layers, ∀ y ∈ layer', ¬ r (key y) (key x) := by
      simp only [lookup_eq_none_iff, List.mem_flatten, List.mem_reverse]
      constructor
      · exact fun h layer' hlayer' y hy => h y ⟨layer', hlayer', hy⟩
      · rintro h y ⟨layer', hlayer', hy⟩
        exact h layer' hlayer' y hy
    have hlayer : lookup r key [layer].flatten (key x) = some x ↔ x ∈ layer := by
      rw [List.flatten_singleton, lookup_eq_some_iff hr hdistinct.1]
      exact and_iff_left (hr.refl _)
    rw [List.reverse_cons, List.flatten_append, lookup_append, Option.or_eq_some_iff,
      ih hdistinct.2, visible_cons, hnone, hlayer, and_comm (b := x ∈ layer)]

end KeyedLookup
