import Lc3Simulator.HashmapIterator

/-!
# The map releases every key once

A map owns the keys that are stored in it: the objects themselves, or its copies of them. An
operation that succeeds is an entry in a ledger of keys, in which the keys that were released and
those in the nodes afterwards are the keys that were stored and those in the nodes before. Entries
add up, growing the table is an empty one, and freeing the map releases the keys of all nodes.

## Main definitions

* `releasedKeys` — the keys that `free_key` was called with
* `storedKeys` — the keys that sets have stored
* `Ledger` — the account of some operations

## Main results

* `hashmapStep_ledger`, `run_ledger` — one operation and a sequence of them
* `hashmap_releases_once` — until the map is freed every key is released exactly once
-/

namespace Lc3Simulator

open Transition Buckets

variable {α : Type} {c : HashmapConfig α} {hashmap hashmap' : HashMap α} {key : Key α}
  {cb cb' cb'' : Callbacks α} {new new' : List (HashmapCallback α)} {keys keys' : List (Key α)}
  {nodes nodes' nodes'' : List (BucketNode α)}

/-! ### Keys and calls -/

/-- The keys that `free_key` was called with. -/
def releasedKeys (calls : List (HashmapCallback α)) : List (Key α) :=
  calls.filterMap fun call => match call with
    | .freeKey key => some key
    | _ => none

/-- The keys that are passed to sets. -/
def keysSet (ops : List (HashmapOp α)) : List (Key α) :=
  ops.filterMap fun op => match op with
    | .set key => some key
    | _ => none

/-- What sets of the keys store: the keys, or copies of them in the blocks allocated for that. -/
def storedKeys (c : HashmapConfig α) (keys : List (Key α)) (calls : List (HashmapCallback α)) :
    List (Key α) :=
  if c.copyElements then
    List.zipWith (fun key ptr => { key with ptr }) keys (elementBlocks calls)
  else keys

/-- The calls that were made since. -/
def Callbacks.since (cb₀ cb : Callbacks α) : List (HashmapCallback α) :=
  cb.calls.drop cb₀.calls.length

theorem Callbacks.Continues.since_eq (h : cb.Continues cb' new) : cb.since cb' = new := by
  rw [Callbacks.since, h.calls, List.drop_left]

theorem releasedKeys_append (calls calls' : List (HashmapCallback α)) :
    releasedKeys (calls ++ calls') = releasedKeys calls ++ releasedKeys calls' :=
  List.filterMap_append

/-! ### The ledger -/

/-- The account of operations that were given `keys` to store, made the calls `new` and turned
the nodes of the map into others. -/
structure Ledger (c : HashmapConfig α) (keys : List (Key α)) (nodes nodes' : List (BucketNode α))
    (cb cb' : Callbacks α) (new : List (HashmapCallback α)) : Prop where
  continues : cb.Continues cb' new
  copies : c.copyElements → (elementBlocks new).length = keys.length
  balanced : (releasedKeys new ++ nodes'.map BucketNode.key).Perm
    (storedKeys c keys new ++ nodes.map BucketNode.key)

theorem storedKeys_append (h : c.copyElements → (elementBlocks new).length = keys.length) :
    storedKeys c (keys ++ keys') (new ++ new') =
      storedKeys c keys new ++ storedKeys c keys' new' := by
  rw [storedKeys, storedKeys, storedKeys]
  split
  · rename_i hcopy
    rw [elementBlocks_append, List.zipWith_append (h hcopy).symm]
  · rfl

theorem storedKeys_nil (c : HashmapConfig α) (calls : List (HashmapCallback α)) :
    storedKeys c [] calls = [] := by
  rw [storedKeys]
  split <;> rfl

/-- Calls about no key are an empty entry. -/
theorem Ledger.of_continues (h : cb.Continues cb' new) (hreleased : releasedKeys new = [])
    (hblocks : elementBlocks new = []) (hnodes : nodes'.Perm nodes) :
    Ledger c [] nodes nodes' cb cb' new := by
  refine ⟨h, fun _ => congrArg List.length hblocks, ?_⟩
  rw [hreleased, storedKeys_nil]
  exact hnodes.map BucketNode.key

/-- **Entries add up.** -/
theorem Ledger.trans (h : Ledger c keys nodes nodes' cb cb' new)
    (h' : Ledger c keys' nodes' nodes'' cb' cb'' new') :
    Ledger c (keys ++ keys') nodes nodes'' cb cb'' (new ++ new') := by
  refine ⟨h.continues.trans h'.continues, fun hcopy => ?_, ?_⟩
  · rw [elementBlocks_append, List.length_append, List.length_append, h.copies hcopy,
      h'.copies hcopy]
  · rw [releasedKeys_append, storedKeys_append h.copies, List.append_assoc]
    have hlater : (releasedKeys new ++ (releasedKeys new' ++ nodes''.map BucketNode.key)).Perm
        (storedKeys c keys' new' ++ (releasedKeys new ++ nodes'.map BucketNode.key)) :=
      (h'.balanced.append_left _).trans (List.perm_append_comm_assoc _ _ _)
    have hearlier :
        (storedKeys c keys' new' ++ (releasedKeys new ++ nodes'.map BucketNode.key)).Perm
        (storedKeys c keys new ++ (storedKeys c keys' new' ++ nodes.map BucketNode.key)) :=
      (h.balanced.append_left _).trans (List.perm_append_comm_assoc _ _ _)
    rw [List.append_assoc]
    exact hlater.trans hearlier

/-! ### The operations -/

/-- The calls for a key that is no longer stored release it. -/
theorem releaseKey_calls (c : HashmapConfig α) (key : Key α) (cb : Callbacks α) :
    ∃ new, cb.Continues (releaseKey c key cb) new ∧ releasedKeys new = [key] ∧
      elementBlocks new = [] := by
  rw [releaseKey]
  split
  · exact ⟨_, (cb.freeKey_continues key).trans ((cb.freeKey key).free_continues key.ptr), rfl, rfl⟩
  · exact ⟨_, cb.freeKey_continues key, rfl, rfl⟩

/-- Growing the table is an empty entry. -/
theorem hashmapResize_ledger (h : hashmap.Shaped c) (cb : Callbacks α) :
    ∃ new, Ledger c [] (hashmap.nodes c) ((hashmapResize c hashmap cb).2.1.nodes c) cb
      (hashmapResize c hashmap cb).2.2 new := by
  have hnodes := (hashmapResize_regrown h cb).nodes
  have halloc := cb.alloc_continues .bucketArray
  rw [hashmapResize, hashmapAllocateBucketArray] at hnodes ⊢
  split
  · exact ⟨[], Ledger.of_continues (Callbacks.Continues.refl cb) rfl rfl (List.Perm.refl _)⟩
  · rename_i hlast
    rw [if_neg hlast] at hnodes
    cases hanswer : (cb.alloc .bucketArray).1 with
    | none =>
      simp only [hanswer, Option.map_none] at hnodes ⊢
      exact ⟨_, Ledger.of_continues halloc rfl rfl hnodes⟩
    | some ptr =>
      simp only [hanswer, Option.map_some] at hnodes ⊢
      exact ⟨_, Ledger.of_continues
        (halloc.trans (Callbacks.free_continues _ hashmap.bucketArrayPtr)) rfl rfl hnodes⟩

/-- A walk over a bucket that succeeds stores the key and releases the one it replaces. -/
theorem hashmapAddKeyToBucket_balanced (c : HashmapConfig α) (key : Key α) (hash : BitVec 64)
    (numElements : ℕ) (cb : Callbacks α) (bucket : List (BucketNode α)) :
    let added := hashmapAddKeyToBucket c key hash numElements cb bucket
    ¬ added.status < 0 → ∃ new, cb.Continues added.callbacks new ∧ elementBlocks new = [] ∧
      (releasedKeys new ++ added.bucket.map BucketNode.key).Perm
        (key :: bucket.map BucketNode.key) := by
  dsimp only
  intro hok
  cases hashmapAddKeyToBucket_outcome c key hash numElements cb bucket with
  | failed _ _ hadded =>
    rw [hadded] at hok
    exact absurd (show (-1 : ℤ) < 0 by decide) hok
  | inserted ptr _ _ hadded =>
    rw [hadded]
    refine ⟨_, cb.alloc_continues .bucketNode, rfl, ?_⟩
    rw [List.map_append]
    exact List.perm_append_singleton key _
  | replaced pre node post hbucket _ hadded =>
    obtain ⟨new, hcont, hreleased, hblocks⟩ := releaseKey_calls c node.key cb
    rw [hadded, hbucket]
    refine ⟨new, hcont, hblocks, ?_⟩
    rw [hreleased, List.map_append, List.map_append, List.map_cons, List.map_cons]
    have hfront (k : Key α) : (pre.map BucketNode.key ++ k :: post.map BucketNode.key).Perm
        (k :: (pre.map BucketNode.key ++ post.map BucketNode.key)) := List.perm_middle
    exact ((hfront key).cons node.key).trans
      ((List.Perm.swap key node.key _).trans ((hfront node.key).symm.cons key))

/-- An insertion that succeeds stores one key, the one that the walk over its bucket is given. -/
theorem hashmapAddKey_ledger (h : hashmap.Shaped c) {keyToUse : Key α}
    (hkey : hashmapGetKeyToUse c key cb = (some keyToUse, cb')) (hcont : cb.Continues cb' new)
    (hcopies : c.copyElements → (elementBlocks new).length = 1)
    (hreleased : releasedKeys new = []) (hstored : storedKeys c [key] new = [keyToUse])
    (hok : (hashmapAddKey c hashmap key cb).1 = 0) :
    ∃ new', Ledger c [key] (hashmap.nodes c) ((hashmapAddKey c hashmap key cb).2.1.nodes c) cb
      (hashmapAddKey c hashmap key cb).2.2 new' := by
  rw [hashmapAddKey, hkey] at hok ⊢
  dsimp only at hok ⊢
  set hash := c.getHash keyToUse.contents
  obtain ⟨others, hold, hupdate⟩ :=
    Buckets.contents_focus (h.getBucket_lt hash) hashmap.bucketArray
  split at hok
  · exact absurd (show (-1 : ℤ) = 0 from hok) (by decide)
  · rename_i hadded
    rw [if_neg hadded]
    obtain ⟨added, hadd, hblocks, hbalanced⟩ := hashmapAddKeyToBucket_balanced c keyToUse hash
      hashmap.numElements cb' (hashmap.bucketArray (hashmapGetBucket c hashmap hash)) hadded
    refine ⟨new ++ added, hcont.trans hadd, fun hcopy => ?_, ?_⟩
    · rw [elementBlocks_append, hblocks, List.append_nil]
      exact hcopies hcopy
    · have hsplit : storedKeys c ([key] ++ []) (new ++ added) =
          storedKeys c [key] new ++ storedKeys c [] added := storedKeys_append hcopies
      have hall : storedKeys c [key] (new ++ added) = [keyToUse] := by
        rw [List.append_nil, hstored, storedKeys_nil] at hsplit
        exact hsplit
      rw [releasedKeys_append, hreleased, List.nil_append, hall]
      have hnew := (hupdate (hashmapAddKeyToBucket c keyToUse hash hashmap.numElements cb'
        (hashmap.bucketArray (hashmapGetBucket c hashmap hash))).bucket).map BucketNode.key
      have hnodes := hold.map BucketNode.key
      rw [List.map_append] at hnew hnodes
      refine (hnew.append_left _).trans ?_
      rw [← List.append_assoc]
      exact (hbalanced.append_right _).trans (hnodes.symm.cons keyToUse)

/-- The key to use is the key itself, or a copy in the block that is allocated for it. -/
theorem hashmapAddKey_ledger_of_ok (h : hashmap.Shaped c)
    (hok : (hashmapAddKey c hashmap key cb).1 = 0) :
    ∃ new, Ledger c [key] (hashmap.nodes c) ((hashmapAddKey c hashmap key cb).2.1.nodes c) cb
      (hashmapAddKey c hashmap key cb).2.2 new := by
  cases hcopy : c.copyElements with
  | false =>
    have hkey : hashmapGetKeyToUse c key cb = (some key, cb) := by
      rw [hashmapGetKeyToUse, hcopy, if_neg Bool.false_ne_true]
    refine hashmapAddKey_ledger h hkey (Callbacks.Continues.refl cb) (fun hc => ?_) rfl ?_ hok
    · exact absurd (hcopy.symm.trans hc) (by decide)
    · rw [storedKeys, hcopy, if_neg Bool.false_ne_true]
  | true =>
    have halloc := cb.alloc_continues .element
    have hkey : hashmapGetKeyToUse c key cb =
        ((cb.alloc .element).1.map fun ptr => { key with ptr }, (cb.alloc .element).2) := by
      rw [hashmapGetKeyToUse, hcopy, if_pos rfl]
    cases hanswer : (cb.alloc .element).1 with
    | none =>
      rw [hanswer, Option.map_none] at hkey
      rw [hashmapAddKey, hkey] at hok
      exact absurd (show (-1 : ℤ) = 0 from hok) (by decide)
    | some ptr =>
      rw [hanswer, Option.map_some] at hkey
      rw [hanswer] at halloc
      refine hashmapAddKey_ledger h hkey halloc (fun _ => rfl) rfl ?_ hok
      rw [storedKeys, hcopy, if_pos rfl]
      rfl

/-- **Set.** -/
theorem hashmapSet_ledger (h : hashmap.Shaped c) (hok : (hashmapSet c hashmap key cb).1 = 0) :
    ∃ new, Ledger c [key] (hashmap.nodes c) ((hashmapSet c hashmap key cb).2.1.nodes c) cb
      (hashmapSet c hashmap key cb).2.2 new := by
  rw [hashmapSet] at hok ⊢
  split
  · rename_i hgrow
    rw [if_pos hgrow] at hok
    obtain ⟨new, hresize⟩ := hashmapResize_ledger h cb
    dsimp only at hok ⊢
    split at hok
    · exact absurd (show (-1 : ℤ) = 0 from hok) (by decide)
    · rename_i hgrown
      rw [if_neg hgrown]
      obtain ⟨new', hadd⟩ := hashmapAddKey_ledger_of_ok (hashmapResize_regrown h cb).shaped hok
      exact ⟨new ++ new', hresize.trans hadd⟩
  · rename_i hgrow
    rw [if_neg hgrow] at hok
    exact hashmapAddKey_ledger_of_ok h hok

theorem hashmapBucketNodeFree_calls (c : HashmapConfig α) (node : BucketNode α)
    (cb : Callbacks α) :
    ∃ new, cb.Continues (hashmapBucketNodeFree c node cb) new ∧ releasedKeys new = [node.key] ∧
      elementBlocks new = [] := by
  obtain ⟨new, hcont, hreleased, hblocks⟩ := releaseKey_calls c node.key cb
  refine ⟨_, hcont.trans (Callbacks.free_continues _ node.ptr), ?_, ?_⟩
  · rw [releasedKeys_append, hreleased]
    rfl
  · rw [elementBlocks_append, hblocks]
    rfl

/-- **Remove.** The key of the node that goes is released. -/
theorem hashmapRemove_ledger (h : hashmap.Shaped c)
    (hremove : hashmapRemove c hashmap key cb = some (hashmap', cb')) :
    ∃ new, Ledger c [] (hashmap.nodes c) (hashmap'.nodes c) cb cb' new := by
  rcases hashmapRemove_cases h key cb with
    ⟨-, hsome⟩ | ⟨-, -, hnone⟩ | ⟨node, hashmap₁, -, -, hsome, -, hnodes, -⟩
  · obtain ⟨rfl, rfl⟩ := Prod.mk.inj (Option.some.inj (hsome.symm.trans hremove))
    exact ⟨[], Ledger.of_continues (Callbacks.Continues.refl _) rfl rfl (List.Perm.refl _)⟩
  · rw [hremove] at hnone
    cases hnone
  · obtain ⟨rfl, rfl⟩ := Prod.mk.inj (Option.some.inj (hsome.symm.trans hremove))
    obtain ⟨new, hcont, hreleased, hblocks⟩ := hashmapBucketNodeFree_calls c node cb
    refine ⟨new, hcont, fun _ => congrArg List.length hblocks, ?_⟩
    rw [hreleased, storedKeys_nil]
    exact (hnodes.map BucketNode.key).symm

/-- **One operation.** -/
theorem hashmapStep_ledger (h : hashmap.Shaped c) {op : HashmapOp α} {reply : Reply α}
    (hstep : hashmapStep c op (hashmap, cb) = some (reply, hashmap', cb'))
    (hok : reply ≠ .status (-1)) :
    ∃ new, Ledger c (keysSet [op]) (hashmap.nodes c) (hashmap'.nodes c) cb cb' new := by
  cases op with
  | set key =>
    have hset : (Reply.status (hashmapSet c hashmap key cb).1, (hashmapSet c hashmap key cb).2) =
        (reply, hashmap', cb') := Option.some.inj hstep
    obtain ⟨rfl, hstate⟩ := Prod.mk.inj hset
    have hledger : (hashmapSet c hashmap key cb).1 = 0 → ∃ new, Ledger c [key] (hashmap.nodes c)
        ((hashmapSet c hashmap key cb).2.1.nodes c) cb (hashmapSet c hashmap key cb).2.2 new :=
      hashmapSet_ledger h
    rw [hstate] at hledger
    refine hledger ?_
    cases hashmapSet_outcome h key cb with
    | failed hstatus => exact absurd (congrArg Reply.status hstatus) hok
    | replaced _ _ _ hstatus => exact hstatus
    | inserted _ _ hstatus => exact hstatus
  | get key =>
    obtain ⟨-, hstate⟩ := Prod.mk.inj (Option.some.inj hstep)
    obtain ⟨rfl, rfl⟩ := Prod.mk.inj hstate
    exact ⟨[], Ledger.of_continues (Callbacks.Continues.refl _) rfl rfl (List.Perm.refl _)⟩
  | remove key =>
    obtain ⟨rfl, hremove⟩ := hashmapStep_remove hstep
    exact hashmapRemove_ledger h hremove

/-- **Any operations.** If none of them fails, they are one entry. -/
theorem run_ledger {ops : List (HashmapOp α)} {outs : List (Reply α)} (h : hashmap.Shaped c)
    (hrun : run (hashmapStep c) ops (hashmap, cb) = some (outs, hashmap', cb'))
    (hok : ∀ reply ∈ outs, reply ≠ .status (-1)) :
    hashmap'.Shaped c ∧
      ∃ new, Ledger c (keysSet ops) (hashmap.nodes c) (hashmap'.nodes c) cb cb' new := by
  induction ops generalizing hashmap cb outs with
  | nil =>
    obtain ⟨-, rfl, rfl⟩ : [] = outs ∧ hashmap = hashmap' ∧ cb = cb' := by simpa using hrun
    exact ⟨h, [], Ledger.of_continues (Callbacks.Continues.refl _) rfl rfl (List.Perm.refl _)⟩
  | cons op ops ih =>
    obtain ⟨reply, ⟨hashmap₁, cb₁⟩, rest, hstep, hrest, rfl⟩ := run_cons_eq_some hrun
    obtain ⟨new, hone⟩ := hashmapStep_ledger h hstep (hok reply List.mem_cons_self)
    obtain ⟨hshaped, new', hmore⟩ := ih ((hashmapStep_outcome h hstep).shaped h) hrest
      fun r hr => hok r (List.mem_cons_of_mem reply hr)
    have hkeys : keysSet (op :: ops) = keysSet [op] ++ keysSet ops :=
      List.filterMap_append (l := [op])
    rw [hkeys]
    exact ⟨hshaped, _, hone.trans hmore⟩

/-! ### Freeing the map -/

/-- A walk over a chain releases the keys of its nodes. -/
theorem hashmapFreeChain_calls (c : HashmapConfig α) (bucket : List (BucketNode α))
    (cb : Callbacks α) :
    ∃ new, cb.Continues (hashmapFreeChain c true bucket cb) new ∧
      releasedKeys new = bucket.map BucketNode.key ∧ elementBlocks new = [] := by
  induction bucket generalizing cb with
  | nil => exact ⟨[], Callbacks.Continues.refl cb, rfl, rfl⟩
  | cons node next ih =>
    obtain ⟨new, hcont, hreleased, hblocks⟩ := hashmapBucketNodeFree_calls c node cb
    obtain ⟨new', hcont', hreleased', hblocks'⟩ := ih (hashmapBucketNodeFree c node cb)
    refine ⟨new ++ new', hcont.trans hcont', ?_, ?_⟩
    · rw [releasedKeys_append, hreleased, hreleased', List.map_cons, List.singleton_append]
    · rw [elementBlocks_append, hblocks, hblocks', List.append_nil]

/-- **The walk over the buckets.** Skipping the empty ones, it frees the nodes of all of them. -/
theorem hashmapFreeBuckets_eq (hashmap : HashMap α) (callFreeKey : Bool) {rounds index : ℕ}
    (hrounds : hashmap.size c ≤ rounds + index) (cb : Callbacks α) :
    hashmapFreeBuckets c hashmap callFreeKey rounds index cb =
      hashmapFreeChain c callFreeKey
        (contentsFrom (hashmap.size c) index hashmap.bucketArray) cb := by
  induction rounds generalizing index cb with
  | zero =>
    rw [contentsFrom_of_le (by omega)]
    rfl
  | succ rounds ih =>
    rw [hashmapFreeBuckets]
    split
    · rename_i hlt
      have hnext := lt_nextIndex (hashmap.size c) hashmap.bucketArray index
      rw [hashmapFindNextBucketIndex_eq, ih (by omega), contentsFrom_nextIndex,
        contentsFrom_of_lt hlt, hashmapFreeChain, hashmapFreeChain, hashmapFreeChain,
        List.foldl_append]
    · rename_i hlast
      rw [contentsFrom_of_le (Nat.le_of_not_lt hlast)]
      rfl

/-- **Free.** The keys of all nodes are released, and no node is left. -/
theorem hashmapFree_ledger (c : HashmapConfig α) (hashmap : HashMap α) (cb : Callbacks α) :
    ∃ new, Ledger c [] (hashmap.nodes c) [] cb (hashmapFree c hashmap cb) new := by
  obtain ⟨new, hcont, hreleased, hblocks⟩ := hashmapFreeChain_calls c (hashmap.nodes c) cb
  have hall : hashmapFreeBuckets c hashmap true (hashmap.size c) 0 cb =
      hashmapFreeChain c true (hashmap.nodes c) cb := by
    rw [hashmapFreeBuckets_eq hashmap true (Nat.le_refl _), contentsFrom_zero]
    rfl
  have hfree := ((hcont.trans (Callbacks.free_continues _ hashmap.bucketArrayPtr)).trans
    (Callbacks.free_continues _ hashmap.sizesPtr)).trans (Callbacks.free_continues _ hashmap.ptr)
  rw [hashmapFree, hashmapFreeInternal, hall]
  refine ⟨_, hfree, fun _ => ?_, ?_⟩
  · simp only [elementBlocks_append, hblocks]
    rfl
  · simp only [releasedKeys_append, hreleased, storedKeys_nil]
    exact List.Perm.of_eq (by simp [releasedKeys])

/-- One call leaves the map and the flag of the iterator as they are. -/
theorem hashmapIteratorNext_same {iterator iterator' : HashMapIterator α} {answer : Option (Key α)}
    (h : hashmapIteratorNext c iterator = some (answer, iterator')) :
    iterator'.hashmap = iterator.hashmap ∧ iterator'.freeWhenDone = iterator.freeWhenDone := by
  have hbucket : (hashmapIteratorFindNextBucket c iterator).hashmap = iterator.hashmap ∧
      (hashmapIteratorFindNextBucket c iterator).freeWhenDone = iterator.freeWhenDone := by
    rw [hashmapIteratorFindNextBucket]
    split <;> exact ⟨rfl, rfl⟩
  rw [hashmapIteratorNext] at h
  split at h
  · obtain ⟨-, rfl⟩ := Prod.mk.inj (Option.some.inj h)
    exact ⟨rfl, rfl⟩
  · split at h
    · cases h
    · cases h
    · obtain ⟨iterator₁, hnext, heq⟩ := Option.map_eq_some_iff.mp h
      obtain ⟨-, rfl⟩ := Prod.mk.inj heq
      rw [hashmapIteratorFindNextNode] at hnext
      split at hnext
      · cases hnext
      · cases hnext
      · obtain rfl := Option.some.inj hnext
        exact hbucket
      · obtain rfl := Option.some.inj hnext
        exact ⟨rfl, rfl⟩

/-- **Freeing an iterator** that owns the map, at any point of the iteration, frees the map. -/
theorem hashmapIteratorFree_ledger {n : ℕ} {iterator iterator' : HashMapIterator α}
    {answers : List (Option (Key α))}
    (hnew : hashmapToIterator c hashmap cb = (some iterator, cb'))
    (hanswers : iteratorAnswers c n iterator = some (answers, iterator')) :
    ∃ new, Ledger c [] (hashmap.nodes c) [] cb (hashmapIteratorFree c iterator' cb') new := by
  obtain ⟨hfresh, rfl⟩ := Prod.mk.inj hnew
  obtain ⟨ptr, -, rfl⟩ := Option.map_eq_some_iff.mp hfresh
  set fresh := hashmapIteratorInitiate c ptr hashmap true
  have hstart : fresh.hashmap = hashmap ∧ fresh.freeWhenDone = true := by
    rw [show fresh = hashmapIteratorInitiate c ptr hashmap true from rfl, hashmapIteratorInitiate]
    split
    · rw [hashmapIteratorFindNextBucket]
      split <;> exact ⟨rfl, rfl⟩
    · exact ⟨rfl, rfl⟩
  have hkeep (_ : Unit) (s : HashMapIterator α) (answer : Option (Key α)) (s' : HashMapIterator α)
      (hs : s.hashmap = hashmap ∧ s.freeWhenDone = true)
      (hstep : hashmapIteratorNext c s = some (answer, s')) :
      s'.hashmap = hashmap ∧ s'.freeWhenDone = true := by
    obtain ⟨hsame, hflag⟩ := hashmapIteratorNext_same hstep
    exact ⟨hsame.trans hs.1, hflag.trans hs.2⟩
  obtain ⟨hmap, hflag⟩ : iterator'.hashmap = hashmap ∧ iterator'.freeWhenDone = true :=
    run_invariant hkeep hstart hanswers
  have halloc : Ledger c [] (hashmap.nodes c) (hashmap.nodes c) cb (cb.alloc .iterator).2 _ :=
    Ledger.of_continues (cb.alloc_continues .iterator) rfl rfl (List.Perm.refl _)
  obtain ⟨new, hfree⟩ := hashmapFree_ledger c hashmap (cb.alloc .iterator).2
  have hlast : Ledger c [] [] [] (hashmapFree c hashmap (cb.alloc .iterator).2) _ _ :=
    Ledger.of_continues (Callbacks.free_continues _ iterator'.ptr) rfl rfl (List.Perm.refl _)
  rw [hashmapIteratorFree, hmap, hflag, if_pos rfl]
  exact ⟨_, (halloc.trans hfree).trans hlast⟩

/-! ### Exactly once -/

theorem hashmapGet_mem (h : hashmap.Shaped c) {k : Key α}
    (hget : hashmapGet c hashmap key = some k) : k ∈ (hashmap.nodes c).map BucketNode.key := by
  obtain ⟨node, hfind, rfl⟩ := Option.map_eq_some_iff.mp hget
  have hbucket := List.mem_of_find?_eq_some hfind
  have hindex : hashmapGetBucket c hashmap node.hash =
      hashmapGetBucket c hashmap (c.getHash key.contents) := h.placed _ node hbucket
  refine List.mem_map_of_mem (h.mem_nodes_iff.mpr ?_)
  rw [hindex]
  exact hbucket

/-- Copies of keys have the contents of the keys. -/
theorem map_contents_copies (keys : List (Key α)) {ptrs : List Ptr}
    (hlength : ptrs.length = keys.length) :
    (List.zipWith (fun (key : Key α) ptr => { key with ptr }) keys ptrs).map Key.contents =
      keys.map Key.contents := by
  induction keys generalizing ptrs with
  | nil => rfl
  | cons key keys ih =>
    obtain ⟨ptr, ptrs, rfl⟩ := List.exists_cons_of_length_eq_add_one hlength
    rw [List.zipWith_cons_cons, List.map_cons, List.map_cons, ih (Nat.succ.inj hlength)]

/-- What is stored has the contents of the keys that were set. -/
theorem Ledger.contents (h : Ledger c keys nodes nodes' cb cb' new) :
    (storedKeys c keys new).map Key.contents = keys.map Key.contents := by
  rw [storedKeys]
  split
  · rename_i hcopy
    exact map_contents_copies keys (h.copies hcopy)
  · rfl

/-- **Every key is released exactly once.** In a run of operations none of which fails, the keys
that are stored are those released so far and those a lookup may still find; and once the map is
freed, or an iterator that owns it, at any point of its iteration, the keys released are the keys
stored, as multisets. So a key that owns its resources, and is stored once, is released once, and
not before the map has given it up. -/
theorem hashmap_releases_once {map : HashMap α} {cb₀ cb₁ : Callbacks α} {ops : List (HashmapOp α)}
    {outs : List (Reply α)} (hnew : hashmapNew c cb₀ = (some map, cb₁))
    (hrun : run (hashmapStep c) ops (map, cb₁) = some (outs, hashmap, cb))
    (hok : ∀ reply ∈ outs, reply ≠ .status (-1)) :
    ∃ stored : List (Key α), stored = storedKeys c (keysSet ops) (cb₁.since cb) ∧
      stored.map Key.contents = (keysSet ops).map Key.contents ∧
      (∀ key k, hashmapGet c hashmap key = some k →
        (∃ others, stored.Perm (releasedKeys (cb₁.since cb) ++ k :: others)) ∧
        (stored.Nodup → k ∉ releasedKeys (cb₁.since cb))) ∧
      (releasedKeys (cb₁.since (hashmapFree c hashmap cb))).Perm stored ∧
      ∀ iterator cb₂ n answers iterator', hashmapToIterator c hashmap cb = (some iterator, cb₂) →
        iteratorAnswers c n iterator = some (answers, iterator') →
        (releasedKeys (cb₁.since (hashmapIteratorFree c iterator' cb₂))).Perm stored := by
  have hnew' := hashmapNew_fst hnew
  obtain ⟨hshaped, new, hledger⟩ := run_ledger (hashmapNew_shaped hnew') hrun hok
  rw [hashmapNew_nodes hnew'] at hledger
  have hfreed (cb' : Callbacks α) (new' : List (HashmapCallback α))
      (hfree : Ledger c [] (hashmap.nodes c) [] cb cb' new') :
      (releasedKeys (cb₁.since cb')).Perm (storedKeys c (keysSet ops) new) := by
    have hall := hledger.trans hfree
    have hbalanced := hall.balanced
    rw [storedKeys_append hledger.copies, storedKeys_nil, List.map_nil, List.append_nil,
      List.append_nil, List.append_nil] at hbalanced
    rw [hall.continues.since_eq]
    exact hbalanced
  have hbalanced := hledger.balanced
  rw [List.map_nil, List.append_nil] at hbalanced
  rw [hledger.continues.since_eq]
  refine ⟨_, rfl, hledger.contents, fun key k hget => ?_, ?_, ?_⟩
  · obtain ⟨pre, post, hmem⟩ := List.append_of_mem (hashmapGet_mem hshaped hget)
    rw [hmem] at hbalanced
    have hsplit : (storedKeys c (keysSet ops) new).Perm (releasedKeys new ++ k :: (pre ++ post)) :=
      hbalanced.symm.trans (List.perm_middle.append_left _)
    refine ⟨⟨pre ++ post, hsplit⟩, fun hnodup hmem => ?_⟩
    exact (List.nodup_append.mp (hsplit.nodup_iff.mp hnodup)).2.2 k hmem k List.mem_cons_self rfl
  · obtain ⟨new', hfree⟩ := hashmapFree_ledger c hashmap cb
    exact hfreed _ new' hfree
  · intro iterator cb₂ n answers iterator' htoIterator hanswers
    obtain ⟨new', hfree⟩ := hashmapIteratorFree_ledger htoIterator hanswers
    exact hfreed _ new' hfree

/-- A key that is set, replaced by an equal one, which is removed, and another one that is left. -/
theorem hashmap_releases_once_colliding :
    ∃ hashmap cb, run (hashmapStep (collidingConfig true))
        [.set ⟨100, 1⟩, .set ⟨101, 1⟩, .remove ⟨102, 1⟩, .set ⟨103, 2⟩]
        (collidingMap, collidingCalls true) =
          some ([.status 0, .status 0, .done, .status 0], hashmap, cb) ∧
      (releasedKeys ((collidingCalls true).since
        (hashmapFree (collidingConfig true) hashmap cb))).Perm [⟨3, 1⟩, ⟨5, 1⟩, ⟨6, 2⟩] := by
  have hrun : run (hashmapStep (collidingConfig true))
      [.set ⟨100, 1⟩, .set ⟨101, 1⟩, .remove ⟨102, 1⟩, .set ⟨103, 2⟩]
      (collidingMap, collidingCalls true) =
    some ([.status 0, .status 0, .done, .status 0], _, _) := rfl
  obtain ⟨stored, hstored, -, -, hfree, -⟩ :=
    hashmap_releases_once (hashmapNew_colliding true) hrun (by decide)
  have hblocks : stored = [⟨3, 1⟩, ⟨5, 1⟩, ⟨6, 2⟩] := hstored
  exact ⟨_, _, hrun, hblocks ▸ hfree⟩

end Lc3Simulator
