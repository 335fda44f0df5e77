import Lc3Simulator.HashmapMap

/-!
# Iterating over the hash map

An iterator looks one node ahead: it holds the chain from the node whose key it returns next, or an
index beyond the buckets. What is still to come is then that chain and the buckets after it, and
one call takes the first node off. In a state like that the node to read is there, so that
`cur_node` is never read before it was written.

## Main definitions

* `HashMapIterator.Ahead` — the nodes still to come
* `iteratorAnswers` — the answers of a number of calls of `hashmap_iterator_next`
* `pmIteratorNext` — the same for the plugins of a plugin manager

## Main results

* `iteratorAnswers_eq` — the keys of the nodes still to come, and then `NULL` for ever
* `hashmapIterator_complete` — a fresh iterator returns every stored key exactly once
* `pmIterator_complete` — and lists every plugin of a plugin manager
-/

namespace Lc3Simulator

open Transition Buckets KeyedLookup

variable {α : Type} {c : HashmapConfig α} {hashmap : HashMap α}
  {iterator iterator' : HashMapIterator α} {nodes : List (BucketNode α)} {cb cb' : Callbacks α}

/-- The nodes that an iterator has ahead: none beyond the last bucket, and otherwise the chain from
the current node, which is there, and the buckets after it. -/
inductive HashMapIterator.Ahead (c : HashmapConfig α) (iterator : HashMapIterator α) :
    List (BucketNode α) → Prop
  | done (hindex : iterator.hashmap.size c ≤ iterator.index) : Ahead c iterator []
  | at (node : BucketNode α) (next : List (BucketNode α))
      (hindex : iterator.index < iterator.hashmap.size c)
      (hnode : iterator.curNode = some (node :: next)) :
      Ahead c iterator (node :: (next ++
        contentsFrom (iterator.hashmap.size c) (iterator.index + 1) iterator.hashmap.bucketArray))

/-- `hashmap_find_next_bucket_index` skips the buckets without nodes. -/
theorem hashmapFindNextBucketIndex_eq (hashmap : HashMap α) (index : ℕ) :
    hashmapFindNextBucketIndex c hashmap index =
      nextIndex (hashmap.size c) hashmap.bucketArray index := rfl

/-! ### One call -/

theorem hashmapIteratorFindNextBucket_ahead (iterator : HashMapIterator α) :
    (hashmapIteratorFindNextBucket c iterator).Ahead c
      (contentsFrom (iterator.hashmap.size c) (iterator.index + 1)
        iterator.hashmap.bucketArray) := by
  rw [← contentsFrom_nextIndex, hashmapIteratorFindNextBucket, hashmapFindNextBucketIndex_eq]
  by_cases hlast : iterator.hashmap.size c ≤
      nextIndex (iterator.hashmap.size c) iterator.hashmap.bucketArray iterator.index
  · rw [contentsFrom_of_le hlast]
    simp only [if_pos hlast]
    exact HashMapIterator.Ahead.done hlast
  · have hlt := Nat.lt_of_not_le hlast
    obtain ⟨node, next, hbucket⟩ := List.exists_cons_of_ne_nil (nextIndex_ne_nil hlt)
    rw [contentsFrom_of_lt hlt, hbucket]
    simp only [if_neg hlast]
    exact HashMapIterator.Ahead.at node next hlt rfl

/-- A fresh iterator has all nodes ahead. -/
theorem hashmapIteratorInitiate_ahead (h : hashmap.Shaped c) (ptr : Ptr) (freeWhenDone : Bool) :
    (hashmapIteratorInitiate c ptr hashmap freeWhenDone).Ahead c (hashmap.nodes c) := by
  have hnodes : hashmap.nodes c =
      hashmap.bucketArray 0 ++ contentsFrom (hashmap.size c) 1 hashmap.bucketArray := by
    rw [HashMap.nodes, ← contentsFrom_zero, contentsFrom_of_lt h.size_pos]
  rw [hnodes, hashmapIteratorInitiate]
  cases hbucket : hashmap.bucketArray 0 with
  | nil => exact hashmapIteratorFindNextBucket_ahead ⟨ptr, hashmap, none, 0, freeWhenDone⟩
  | cons node next => exact HashMapIterator.Ahead.at node next h.size_pos rfl

/-- Without nodes ahead a call returns `NULL` and changes nothing. -/
theorem hashmapIteratorNext_done (h : iterator.Ahead c []) :
    hashmapIteratorNext c iterator = some (none, iterator) := by
  cases h with
  | done hindex => rw [hashmapIteratorNext, if_pos hindex]

/-- **One call.** With nodes ahead a call returns the key of the first one, and has the others ahead
then. -/
theorem hashmapIteratorNext_ahead {node : BucketNode α} (h : iterator.Ahead c (node :: nodes)) :
    ∃ iterator', hashmapIteratorNext c iterator = some (some node.key, iterator') ∧
      iterator'.Ahead c nodes := by
  cases h with
  | «at» _ next hindex hnode =>
    rw [hashmapIteratorNext, if_neg (Nat.not_le_of_lt hindex), hnode, hashmapIteratorFindNextNode,
      hnode]
    cases next with
    | nil => exact ⟨_, rfl, hashmapIteratorFindNextBucket_ahead iterator⟩
    | cons node' next => exact ⟨_, rfl, HashMapIterator.Ahead.at node' next hindex rfl⟩

/-! ### All calls -/

/-- The answers of `n` calls of `hashmap_iterator_next`, and the iterator after them. -/
def iteratorAnswers (c : HashmapConfig α) (n : ℕ) (iterator : HashMapIterator α) :
    Option (List (Option (Key α)) × HashMapIterator α) :=
  run (fun _ : Unit => hashmapIteratorNext c) (List.replicate n ()) iterator

/-- **All calls.** The answers are the keys of the nodes ahead, in order, and then `NULL`. -/
theorem iteratorAnswers_eq (n : ℕ) (h : iterator.Ahead c nodes) :
    ∃ iterator', iteratorAnswers c n iterator =
      some ((List.range n).map fun i => nodes[i]?.map BucketNode.key, iterator') := by
  induction n generalizing iterator nodes with
  | zero => exact ⟨iterator, rfl⟩
  | succ n ih =>
    rw [iteratorAnswers, List.replicate_succ, run_cons, List.range_succ_eq_map]
    cases nodes with
    | nil =>
      obtain ⟨iterator', hrest⟩ := ih h
      rw [iteratorAnswers] at hrest
      rw [hashmapIteratorNext_done h]
      exact ⟨iterator', by simp [hrest, Function.comp_def]⟩
    | cons node nodes =>
      obtain ⟨iterator₁, hnext, hahead⟩ := hashmapIteratorNext_ahead h
      obtain ⟨iterator', hrest⟩ := ih hahead
      rw [iteratorAnswers] at hrest
      rw [hnext]
      exact ⟨iterator', by simp [hrest, Function.comp_def]⟩

/-- An iterator that is handed out is a fresh one of the map. -/
theorem hashmapIterator_ahead (h : hashmap.Shaped c)
    (hnew : (hashmapGetIterator c hashmap cb).1 = some iterator ∨
      (hashmapToIterator c hashmap cb).1 = some iterator) :
    iterator.Ahead c (hashmap.nodes c) := by
  rcases hnew with hnew | hnew
  · obtain ⟨ptr, -, rfl⟩ := Option.map_eq_some_iff.mp hnew
    exact hashmapIteratorInitiate_ahead h ptr false
  · obtain ⟨ptr, -, rfl⟩ := Option.map_eq_some_iff.mp hnew
    exact hashmapIteratorInitiate_ahead h ptr true

/-- Looking up the key of a node finds that very key, and only such keys are found. -/
theorem mem_map_key_iff (hc : c.Lawful) (h : hashmap.Shaped c) (hkeyed : hashmap.Keyed c)
    (k : Key α) : k ∈ (hashmap.nodes c).map BucketNode.key ↔ hashmapGet c hashmap k = some k := by
  rw [hashmapGet_eq_find hc h hkeyed, List.mem_map, Option.map_eq_some_iff]
  constructor
  · rintro ⟨node, hnode, rfl⟩
    have hfind := (lookup_eq_some_iff hc.equivalence hkeyed.distinct).mpr
      ⟨hnode, hc.equivalence.refl node.contents⟩
    exact ⟨node, hfind, rfl⟩
  · rintro ⟨node, hfind, hkey⟩
    exact ⟨node, (mem_of_lookup hfind).1, hkey⟩

/-- **Iteration is complete and without repetition.** The calls on a fresh iterator return the keys
of the nodes, each once, and then `NULL` on every call; none of them reads a node that is not
there. If `compare` and `get_hash` obey their laws, these are the keys that a lookup finds, and no
two of them are equal. -/
theorem hashmapIterator_complete (hreach : HashmapReachable c hashmap)
    (hnew : (hashmapGetIterator c hashmap cb).1 = some iterator ∨
      (hashmapToIterator c hashmap cb).1 = some iterator) :
    ∃ keys : List (Key α), keys.Perm ((hashmap.nodes c).map BucketNode.key) ∧
      (∀ n, ∃ iterator', iteratorAnswers c n iterator =
        some ((List.range n).map fun i => keys[i]?, iterator')) ∧
      (c.Lawful → (keys.Pairwise fun a b => ¬ c.Equal a.contents b.contents) ∧
        ∀ k, k ∈ keys ↔ hashmapGet c hashmap k = some k) := by
  refine ⟨(hashmap.nodes c).map BucketNode.key, List.Perm.refl _, fun n => ?_, fun hc => ⟨?_, ?_⟩⟩
  · simp only [List.getElem?_map]
    exact iteratorAnswers_eq n (hashmapIterator_ahead hreach.shaped hnew)
  · exact List.pairwise_map.mpr (hreach.keyed hc).distinct
  · exact mem_map_key_iff hc hreach.shaped (hreach.keyed hc)

/-- An iterator over the numbers in several buckets. -/
def spreadIterator : HashMapIterator ℕ :=
  hashmapIteratorInitiate spreadConfig 7 spreadMap false

theorem hashmapIterator_complete_spread :
    ∃ keys : List (Key ℕ), keys.Perm ((spreadMap.nodes spreadConfig).map BucketNode.key) ∧
      (∀ n, ∃ iterator', iteratorAnswers spreadConfig n spreadIterator =
        some ((List.range n).map fun i => keys[i]?, iterator')) ∧
      ⟨101, 1⟩ ∈ keys ∧ ⟨124, 24⟩ ∈ keys := by
  have hnew : (hashmapGetIterator spreadConfig spreadMap ⟨fun _ => some 7, 0, []⟩).1 =
    some spreadIterator := rfl
  obtain ⟨keys, hperm, hanswers, hkeys⟩ :=
    hashmapIterator_complete spreadMap_reachable (Or.inl hnew)
  have hmem := (hkeys spreadConfig_lawful).2
  exact ⟨keys, hperm, hanswers, (hmem ⟨101, 1⟩).mpr (by decide +kernel),
    (hmem ⟨124, 24⟩).mpr (by decide +kernel)⟩

/-! ### The plugins of a plugin manager -/

/-- `struct plugin_manager_entry`, which is the key of the plugin manager's map. -/
structure PluginManagerEntry where
  dlhandle : Ptr
  name : String
  path : String
  device : Ptr
  deriving DecidableEq, Repr

/-- `struct pm_device_data`. -/
structure PmDeviceData where
  name : String
  path : String
  device : Ptr
  deriving DecidableEq, Repr

/-- What `pm_iterator_next` stores for an entry. -/
def pmDeviceData (entry : Key PluginManagerEntry) : PmDeviceData :=
  ⟨entry.contents.name, entry.contents.path, entry.contents.device⟩

/-- `pm_iterator_next`. -/
def pmIteratorNext (c : HashmapConfig PluginManagerEntry)
    (iterator : HashMapIterator PluginManagerEntry) :
    Option (Option PmDeviceData × HashMapIterator PluginManagerEntry) :=
  (hashmapIteratorNext c iterator).map (Prod.map (Option.map pmDeviceData) id)

/-- The calls of `pm_iterator_next` return the data of the nodes still to come. -/
theorem pmIteratorAnswers_eq {c : HashmapConfig PluginManagerEntry}
    {iterator : HashMapIterator PluginManagerEntry} {nodes : List (BucketNode PluginManagerEntry)}
    (h : iterator.Ahead c nodes) (n : ℕ) :
    ∃ iterator', run (fun _ : Unit => pmIteratorNext c) (List.replicate n ()) iterator =
      some ((List.range n).map fun i =>
        ((nodes.map BucketNode.key).map pmDeviceData)[i]?, iterator') := by
  obtain ⟨iterator', hanswers⟩ := iteratorAnswers_eq n h
  rw [iteratorAnswers] at hanswers
  refine ⟨iterator', ?_⟩
  have hrun : run (fun _ : Unit => pmIteratorNext c) (List.replicate n ()) iterator =
      (run (fun _ : Unit => hashmapIteratorNext c) (List.replicate n ()) iterator).map
        (Prod.map (List.map (Option.map pmDeviceData)) id) :=
    run_map_out (Option.map pmDeviceData) (List.replicate n ()) iterator
  rw [hanswers] at hrun
  refine hrun.trans ?_
  simp [Function.comp_def]

/-- **Every plugin is listed once.** The calls on a fresh iterator return the data of the entries,
and then `NULL`. -/
theorem pmIterator_complete {c : HashmapConfig PluginManagerEntry}
    {hashmap : HashMap PluginManagerEntry} {iterator : HashMapIterator PluginManagerEntry}
    {cb : Callbacks PluginManagerEntry} (hreach : HashmapReachable c hashmap)
    (hnew : (hashmapGetIterator c hashmap cb).1 = some iterator) (n : ℕ) :
    ∃ iterator', run (fun _ : Unit => pmIteratorNext c) (List.replicate n ()) iterator =
      some ((List.range n).map fun i =>
        (((hashmap.nodes c).map BucketNode.key).map pmDeviceData)[i]?, iterator') :=
  pmIteratorAnswers_eq (hashmapIterator_ahead hreach.shaped (Or.inl hnew)) n

end Lc3Simulator
