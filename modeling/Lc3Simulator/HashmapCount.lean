import Lc3Simulator.HashmapAllocation
import Lc3Simulator.HashmapMap

/-!
# The count of elements

`num_elements` is counted up by each insertion and never down. It is the number of nodes plus the
number of keys that were removed, so that it is the number of nodes for as long as nothing has been
removed; from then on the table grows too early, and `hashmap_to_list` reports slots of its array
that it has not written.

## Main definitions

* `CountExact` — the count is right for everything it is used for
* `numRemoves` — the removes in a sequence of operations

## Main results

* `run_count` — what the count is after any operations
* `hashmap_count_exact_iff` — the count is exact if and only if nothing has been removed
-/

namespace Lc3Simulator

open Transition

variable {α : Type} {c : HashmapConfig α} {hashmap hashmap' : HashMap α} {key : Key α}
  {cb cb' : Callbacks α}

/-! ### Counting along a run -/

/-- How many of the operations are removes. -/
def numRemoves (ops : List (HashmapOp α)) : ℕ :=
  ops.countP fun op => match op with
    | .remove _ => true
    | _ => false

theorem numRemoves_eq_zero_iff {ops : List (HashmapOp α)} :
    numRemoves ops = 0 ↔ ∀ key, .remove key ∉ ops := by
  rw [numRemoves, List.countP_eq_zero]
  constructor
  · exact fun h key hmem => h _ hmem rfl
  · intro h op hmem
    cases op with
    | set _ => simp
    | get _ => simp
    | remove key => exact absurd hmem (h key)

/-- One operation moves the count and the number of nodes apart only by removing a node. -/
theorem StepOutcome.count {op : HashmapOp α} {reply : Reply α}
    (hstep : StepOutcome c hashmap hashmap' op reply)
    (hpresent : RemovesPresent c op (hashmap, cb)) :
    hashmap'.numElements + (hashmap.nodes c).length =
      hashmap.numElements + (hashmap'.nodes c).length + numRemoves [op] := by
  cases hstep with
  | set _ _ houtcome =>
    cases houtcome with
    | failed _ hregrown =>
      rw [hregrown.numElements, hregrown.nodes.length_eq]
      rfl
    | replaced _ _ _ _ _ _ hold _ hnew hnum =>
      rw [hnum, hold.length_eq, hnew.length_eq]
      rfl
    | inserted _ _ _ _ _ _ hnew hnum =>
      rw [hnum, hnew.length_eq, List.length_cons]
      show _ = _ + 0
      omega
  | get _ hsame =>
    rw [hsame]
    rfl
  | removeEmpty key hbucket _ =>
    refine absurd (hashmapGet_eq_none_iff.mpr fun node hnode => ?_) (hpresent key rfl)
    rw [hbucket] at hnode
    cases hnode
  | removed _ _ _ _ _ hnodes hnum =>
    rw [hnum, hnodes.length_eq, List.length_cons]
    show _ = _ + 1
    omega

/-- **The count.** Every remove leaves the count one higher above the number of nodes. -/
theorem run_count {ops : List (HashmapOp α)} {outs : List (Reply α)} (h : hashmap.Shaped c)
    (hpresent : Along (hashmapStep c) (RemovesPresent c) ops (hashmap, cb))
    (hrun : run (hashmapStep c) ops (hashmap, cb) = some (outs, hashmap', cb')) :
    hashmap'.numElements + (hashmap.nodes c).length =
        hashmap.numElements + (hashmap'.nodes c).length + numRemoves ops ∧
      hashmap'.Shaped c := by
  induction ops generalizing hashmap cb outs with
  | nil =>
    obtain ⟨-, rfl, -⟩ : [] = outs ∧ hashmap = hashmap' ∧ cb = cb' := by simpa using hrun
    exact ⟨rfl, h⟩
  | cons op ops ih =>
    obtain ⟨reply, ⟨hashmap₁, cb₁⟩, rest, hstep, hrest, -⟩ := run_cons_eq_some hrun
    have houtcome := hashmapStep_outcome h hstep
    obtain ⟨hcount, hshaped⟩ := ih (houtcome.shaped h) (hpresent.2 _ _ hstep) hrest
    have hone := houtcome.count hpresent.1
    have hsplit : numRemoves (op :: ops) = numRemoves [op] + numRemoves ops := by
      rw [numRemoves, numRemoves, numRemoves, ← List.countP_append, List.singleton_append]
    exact ⟨by omega, hshaped⟩

/-! ### The list of the elements -/

/-- Storing nodes behind those stored already, in an array with just enough slots. -/
theorem hashmapStoreElements_eq (stored : List α) (nodes : List (BucketNode α)) :
    hashmapStoreElements nodes (stored.map some ++ List.replicate nodes.length none)
        stored.length =
      some ((stored ++ nodes.map BucketNode.contents).map some) := by
  induction nodes generalizing stored with
  | nil => simp [hashmapStoreElements]
  | cons node nodes ih =>
    have hset : (stored.map some ++ List.replicate (node :: nodes).length none).set stored.length
        (some node.key.contents) =
        (stored ++ [node.key.contents]).map some ++ List.replicate nodes.length none := by
      simp [List.replicate_succ]
    have hadd : hashmapAddElementToArray
        (stored.map some ++ List.replicate (node :: nodes).length none) node.key.contents
        stored.length =
        some ((stored ++ [node.key.contents]).map some ++ List.replicate nodes.length none) := by
      rw [hashmapAddElementToArray, if_pos (by simp), hset]
    have hrest := ih (stored ++ [node.key.contents])
    rw [List.length_append] at hrest
    rw [hashmapStoreElements, hadd]
    exact hrest.trans (by simp [BucketNode.contents])

/-- With an exact count the array holds the contents of every node once and has no other slot. -/
theorem hashmapToList_eq (hcount : hashmap.numElements = (hashmap.nodes c).length)
    {ptr : Ptr} (halloc : (cb.alloc .elements).1 = some ptr) :
    ∃ cb', hashmapToList c hashmap cb = some (some
      ((hashmap.nodes c).map fun node => some node.key.contents,
        (hashmap.nodes c).length), cb') := by
  have hstore : hashmapStoreElements (hashmap.nodes c)
      (List.replicate (hashmap.nodes c).length none) 0 =
      some ((hashmap.nodes c).map fun node => some node.key.contents) := by
    refine (hashmapStoreElements_eq [] (hashmap.nodes c)).trans ?_
    rw [List.nil_append, List.map_map]
    rfl
  have hcall : cb.alloc .elements = (some ptr, (cb.alloc .elements).2) := Prod.ext halloc rfl
  rw [hashmapToList, hcall]
  dsimp only
  rw [hcount, show (List.range (hashmap.size c)).flatMap hashmap.bucketArray = hashmap.nodes c from
    rfl, hstore]
  exact ⟨_, rfl⟩

/-- The count is right for everything it is used for: it is the number of nodes, the test of a set
is on the true load, and the list of the elements, when there is memory for it, reports exactly the
slots it has stored, one for each node. -/
structure CountExact (c : HashmapConfig α) (hashmap : HashMap α) : Prop where
  numElements : hashmap.numElements = (hashmap.nodes c).length
  grows : hashmap.numElements = hashmap.numElementsGrow ↔
    (hashmap.nodes c).length = c.numElementsGrow (hashmap.size c)
  toList : ∀ cb, (cb.alloc .elements).1 ≠ none → ∃ cb', hashmapToList c hashmap cb =
    some (some ((hashmap.nodes c).map fun node => some node.key.contents,
      (hashmap.nodes c).length), cb')

/-- **The count is exact if and only if no key has been removed** since the map was new. -/
theorem hashmap_count_exact_iff {new : HashMap α} {cb₀ cb₁ : Callbacks α}
    {ops : List (HashmapOp α)} {outs : List (Reply α)}
    (hnew : hashmapNew c cb₀ = (some new, cb₁))
    (hpresent : Along (hashmapStep c) (RemovesPresent c) ops (new, cb₁))
    (hrun : run (hashmapStep c) ops (new, cb₁) = some (outs, hashmap, cb)) :
    CountExact c hashmap ↔ ∀ key, .remove key ∉ ops := by
  have hnew' := hashmapNew_fst hnew
  obtain ⟨hcount, hshaped⟩ := run_count (hashmapNew_shaped hnew') hpresent hrun
  rw [hashmapNew_nodes hnew', (hashmapNew_eq_some hnew').2.2.1, List.length_nil] at hcount
  rw [← numRemoves_eq_zero_iff]
  constructor
  · intro h
    have := h.numElements
    omega
  · intro hzero
    have hexact : hashmap.numElements = (hashmap.nodes c).length := by omega
    refine ⟨hexact, by rw [hexact, hshaped.numElementsGrow], fun cb halloc => ?_⟩
    obtain ⟨ptr, hptr⟩ := Option.ne_none_iff_exists'.mp halloc
    exact hashmapToList_eq hexact hptr

theorem hashmap_count_exact_spread : CountExact spreadConfig spreadMap := by
  obtain ⟨outs, hrun⟩ := run_sets spreadConfig (numberKeys [1, 24, 2, 3, 4, 5, 6, 7, 8])
    (collidingMap, collidingCalls false)
  refine (hashmap_count_exact_iff hashmapNew_spread (sets_removesPresent ..) hrun).mpr
    fun key hmem => ?_
  obtain ⟨_, -, hop⟩ := List.mem_map.mp hmem
  cases hop

/-- After a set and a remove of the same key the count is still one. -/
theorem hashmap_count_after_remove :
    ∃ (c : HashmapConfig ℕ) (cb₀ : Callbacks ℕ) (new : HashMap ℕ) (cb₁ : Callbacks ℕ)
      (ops : List (HashmapOp ℕ)) (outs : List (Reply ℕ)) (hashmap : HashMap ℕ) (cb : Callbacks ℕ),
      hashmapNew c cb₀ = (some new, cb₁) ∧
      Along (hashmapStep c) (RemovesPresent c) ops (new, cb₁) ∧
      run (hashmapStep c) ops (new, cb₁) = some (outs, hashmap, cb) ∧
      ¬ CountExact c hashmap := by
  refine ⟨collidingConfig false, freshBlocks, collidingMap, collidingCalls false,
    [.set ⟨100, 1⟩, .remove ⟨100, 1⟩], [.status 0, .done], _, _, hashmapNew_colliding false, ?_,
    rfl, fun h => absurd h.numElements (by decide)⟩
  refine ⟨fun _ h => (by cases h), fun _ _ h => ?_⟩
  obtain ⟨-, rfl⟩ := Prod.mk.inj (Option.some.inj h)
  refine ⟨fun _ h => ?_, fun _ _ _ => trivial⟩
  cases h
  decide

end Lc3Simulator
