import Lc3Simulator.HashmapStep

/-!
# The allocator of the hash map

A set allocates up to three times, and gives up at the first answer that is `NULL`. What it has
asked of the callbacks is the old list of calls and some more, and the answers still to come stay
the same, so that an allocator that always has a block still does.

## Main definitions

* `Callbacks.Continues` — some calls later
* `elementBlocks`, `freedBlocks` — the blocks for copies of keys, and those that were freed
* `FailedCalls` — the calls of a set that fails
* `Callbacks.Working` — every answer of the allocator is a block

## Main results

* `hashmapSet_calls`, `FailedCalls.freed` — what a set that fails has called, and what it has freed
* `hashmapNew_working`, `hashmapSet_working` — with an allocator that works nothing fails
-/

namespace Lc3Simulator

open Transition

variable {α : Type} {c : HashmapConfig α} {hashmap hashmap' : HashMap α} {key : Key α}
  {cb cb' cb'' : Callbacks α} {new new' : List (HashmapCallback α)}

/-! ### Calls -/

/-- The calls `new` later. An allocation that failed is one of the allocator's answers. -/
structure Callbacks.Continues (cb cb' : Callbacks α) (new : List (HashmapCallback α)) : Prop where
  answers : cb'.answers = cb.answers
  calls : cb'.calls = cb.calls ++ new
  failed : ∀ block, .alloc block none ∈ new → ∃ n, cb.answers n = none

theorem Callbacks.Continues.refl (cb : Callbacks α) : cb.Continues cb [] :=
  ⟨rfl, (List.append_nil _).symm, fun _ h => absurd h List.not_mem_nil⟩

theorem Callbacks.Continues.trans (h : cb.Continues cb' new) (h' : cb'.Continues cb'' new') :
    cb.Continues cb'' (new ++ new') := by
  refine ⟨h'.answers.trans h.answers, by rw [h'.calls, h.calls, List.append_assoc], ?_⟩
  intro block hmem
  rcases List.mem_append.mp hmem with hmem | hmem
  · exact h.failed block hmem
  · exact h.answers ▸ h'.failed block hmem

theorem Callbacks.alloc_continues (cb : Callbacks α) (block : Block) :
    cb.Continues (cb.alloc block).2 [.alloc block (cb.alloc block).1] := by
  refine ⟨rfl, rfl, fun block' hmem => ⟨cb.numAllocs, ?_⟩⟩
  exact (HashmapCallback.alloc.inj (List.mem_singleton.mp hmem)).2.symm

theorem Callbacks.free_continues (cb : Callbacks α) (ptr : Ptr) :
    cb.Continues (cb.free ptr) [.free ptr] :=
  ⟨rfl, rfl, fun _ hmem => by cases List.mem_singleton.mp hmem⟩

theorem Callbacks.freeKey_continues (cb : Callbacks α) (key : Key α) :
    cb.Continues (cb.freeKey key) [.freeKey key] :=
  ⟨rfl, rfl, fun _ hmem => by cases List.mem_singleton.mp hmem⟩

theorem releaseKey_continues (c : HashmapConfig α) (key : Key α) (cb : Callbacks α) :
    ∃ new, cb.Continues (releaseKey c key cb) new := by
  rw [releaseKey]
  split
  · exact ⟨_, (cb.freeKey_continues key).trans ((cb.freeKey key).free_continues key.ptr)⟩
  · exact ⟨_, cb.freeKey_continues key⟩

theorem hashmapBucketNodeFree_continues (c : HashmapConfig α) (node : BucketNode α)
    (cb : Callbacks α) : ∃ new, cb.Continues (hashmapBucketNodeFree c node cb) new := by
  obtain ⟨new, h⟩ := releaseKey_continues c node.key cb
  have hfree : hashmapBucketNodeFree c node cb = (releaseKey c node.key cb).free node.ptr := by
    rw [hashmapBucketNodeFree, releaseKey]
  rw [hfree]
  exact ⟨_, h.trans (Callbacks.free_continues _ node.ptr)⟩

/-! ### What a set that fails has called -/

/-- The blocks that were allocated for copies of keys. -/
def elementBlocks (calls : List (HashmapCallback α)) : List Ptr :=
  calls.filterMap fun call => match call with
    | .alloc .element answer => answer
    | _ => none

/-- The blocks that were freed. -/
def freedBlocks (calls : List (HashmapCallback α)) : List Ptr :=
  calls.filterMap fun call => match call with
    | .free ptr => some ptr
    | _ => none

theorem elementBlocks_append (calls calls' : List (HashmapCallback α)) :
    elementBlocks (calls ++ calls') = elementBlocks calls ++ elementBlocks calls' :=
  List.filterMap_append

theorem freedBlocks_append (calls calls' : List (HashmapCallback α)) :
    freedBlocks (calls ++ calls') = freedBlocks calls ++ freedBlocks calls' :=
  List.filterMap_append

/-- The same bucket array. -/
def SameTable (hashmap hashmap' : HashMap α) : Prop :=
  hashmap'.curSize = hashmap.curSize ∧ hashmap'.bucketArrayPtr = hashmap.bucketArrayPtr

/-- The calls that turn one map into the other by growing: none, or a new bucket array is allocated
and the old one freed. -/
inductive GrowCalls (hashmap hashmap' : HashMap α) : List (HashmapCallback α) → Prop
  | kept (hsame : SameTable hashmap hashmap') : GrowCalls hashmap hashmap' []
  | grown (hsize : hashmap'.curSize = hashmap.curSize + 1) : GrowCalls hashmap hashmap'
      [.alloc .bucketArray (some hashmap'.bucketArrayPtr), .free hashmap.bucketArrayPtr]

/-- The calls of an insertion that fails: there was no block for the copy of the key or for the
node. Then the copy is freed, unless its block is the key itself. -/
inductive AddFailedCalls (key : Key α) : List (HashmapCallback α) → Prop
  | copy : AddFailedCalls key [.alloc .element none]
  | node : AddFailedCalls key [.alloc .bucketNode none]
  | nodeOfCopy (ptr : Ptr) : AddFailedCalls key
      ([.alloc .element (some ptr), .alloc .bucketNode none] ++
        if key.ptr ≠ ptr then [.free ptr] else [])

/-- The calls of a set that fails: to grow, or to insert the key afterwards. -/
inductive FailedCalls (key : Key α) (hashmap hashmap' : HashMap α) :
    List (HashmapCallback α) → Prop
  | growth (hsame : SameTable hashmap hashmap') :
      FailedCalls key hashmap hashmap' [.alloc .bucketArray none]
  | insertion {grow add : List (HashmapCallback α)} (hgrow : GrowCalls hashmap hashmap' grow)
      (hadd : AddFailedCalls key add) : FailedCalls key hashmap hashmap' (grow ++ add)

/-- Growing that does not fail. -/
theorem GrowCalls.freed {grow : List (HashmapCallback α)} (h : GrowCalls hashmap hashmap' grow) :
    (∀ k, .freeKey k ∉ grow) ∧ elementBlocks grow = [] ∧
      freedBlocks grow =
        if hashmap'.curSize = hashmap.curSize then [] else [hashmap.bucketArrayPtr] := by
  cases h with
  | kept hsame => exact ⟨fun _ => List.not_mem_nil, rfl, (if_pos hsame.1).symm⟩
  | grown hsize =>
    have hne : hashmap'.curSize ≠ hashmap.curSize := by omega
    exact ⟨fun k => by simp, rfl, (if_neg hne).symm⟩

/-- An insertion that fails frees the copy of the key and nothing else. -/
theorem AddFailedCalls.freed {add : List (HashmapCallback α)} (h : AddFailedCalls key add)
    (hfresh : .alloc .element (some key.ptr) ∉ add) :
    (∀ k, .freeKey k ∉ add) ∧ (elementBlocks add).length ≤ 1 ∧
      freedBlocks add = elementBlocks add := by
  cases h with
  | copy => exact ⟨fun k => by simp, Nat.zero_le 1, rfl⟩
  | node => exact ⟨fun k => by simp, Nat.zero_le 1, rfl⟩
  | nodeOfCopy ptr =>
    have hne : key.ptr ≠ ptr := by
      rintro rfl
      exact hfresh List.mem_cons_self
    rw [if_pos hne]
    exact ⟨fun k => by simp, Nat.le_refl 1, rfl⟩

/-- The bucket array counts, and not what is in it. -/
theorem GrowCalls.of_sameTable {grow : List (HashmapCallback α)} {hashmap'' : HashMap α}
    (h : GrowCalls hashmap hashmap' grow) (hsame : SameTable hashmap' hashmap'') :
    GrowCalls hashmap hashmap'' grow := by
  cases h with
  | kept hkept => exact .kept ⟨hsame.1.trans hkept.1, hsame.2.trans hkept.2⟩
  | grown hsize =>
    rw [← hsame.2]
    exact .grown (hsame.1.trans hsize)

/-- **What a set that fails has freed**: the old bucket array if it has grown the table, and the
copy of the key if it has made one. -/
theorem FailedCalls.freed {calls : List (HashmapCallback α)}
    (h : FailedCalls key hashmap hashmap' calls)
    (hfresh : .alloc .element (some key.ptr) ∉ calls) :
    (∀ k, .freeKey k ∉ calls) ∧ (elementBlocks calls).length ≤ 1 ∧
      freedBlocks calls =
        (if hashmap'.curSize = hashmap.curSize then [] else [hashmap.bucketArrayPtr]) ++
          elementBlocks calls := by
  cases h with
  | growth hsame => exact ⟨fun k => by simp, Nat.zero_le 1, by rw [if_pos hsame.1]; rfl⟩
  | @insertion grow add hgrow hadd =>
    obtain ⟨hkeys, hblocks, hfreed⟩ := hgrow.freed
    obtain ⟨hkeys', hblocks', hfreed'⟩ :=
      hadd.freed fun hmem => hfresh (List.mem_append_right _ hmem)
    refine ⟨fun k hmem => ?_, ?_, ?_⟩
    · exact (List.mem_append.mp hmem).elim (hkeys k) (hkeys' k)
    · rw [elementBlocks_append, hblocks, List.nil_append]
      exact hblocks'
    · rw [freedBlocks_append, elementBlocks_append, hblocks, hfreed, hfreed', List.nil_append]

/-- The bucket array of the map is the old one, or the new one that was allocated. -/
theorem FailedCalls.bucketArray {calls : List (HashmapCallback α)}
    (h : FailedCalls key hashmap hashmap' calls) :
    if hashmap'.curSize = hashmap.curSize then hashmap'.bucketArrayPtr = hashmap.bucketArrayPtr
    else .alloc .bucketArray (some hashmap'.bucketArrayPtr) ∈ calls := by
  have hgrown {grow : List (HashmapCallback α)} (hgrow : GrowCalls hashmap hashmap' grow) :
      if hashmap'.curSize = hashmap.curSize then hashmap'.bucketArrayPtr = hashmap.bucketArrayPtr
      else .alloc .bucketArray (some hashmap'.bucketArrayPtr) ∈ grow := by
    cases hgrow with
    | kept hsame =>
      rw [if_pos hsame.1]
      exact hsame.2
    | grown hsize =>
      rw [if_neg (by omega)]
      exact List.mem_cons_self
  cases h with
  | growth hsame =>
    rw [if_pos hsame.1]
    exact hsame.2
  | insertion hgrow hadd =>
    have hboth := hgrown hgrow
    split
    · rename_i hsize
      rwa [if_pos hsize] at hboth
    · rename_i hsize
      rw [if_neg hsize] at hboth
      exact List.mem_append_left _ hboth

/-- The allocator had no block. -/
theorem FailedCalls.refused {calls : List (HashmapCallback α)}
    (h : FailedCalls key hashmap hashmap' calls) : ∃ block, .alloc block none ∈ calls := by
  cases h with
  | growth => exact ⟨.bucketArray, List.mem_cons_self⟩
  | insertion hgrow hadd =>
    cases hadd with
    | copy => exact ⟨.element, List.mem_append_right _ List.mem_cons_self⟩
    | node => exact ⟨.bucketNode, List.mem_append_right _ List.mem_cons_self⟩
    | nodeOfCopy ptr => exact ⟨.bucketNode, List.mem_append_right _ (by simp)⟩

/-- Growing allocates no key and releases none, and gives up only without a block. -/
theorem hashmapResize_calls (c : HashmapConfig α) (hashmap : HashMap α) (cb : Callbacks α) :
    ∃ new, cb.Continues (hashmapResize c hashmap cb).2.2 new ∧
      if (hashmapResize c hashmap cb).1 < 0 then
        SameTable hashmap (hashmapResize c hashmap cb).2.1 ∧ new = [.alloc .bucketArray none]
      else GrowCalls hashmap (hashmapResize c hashmap cb).2.1 new := by
  have halloc := cb.alloc_continues .bucketArray
  rw [hashmapResize, hashmapAllocateBucketArray]
  split
  · exact ⟨[], Callbacks.Continues.refl cb, .kept ⟨rfl, rfl⟩⟩
  · cases hanswer : (cb.alloc .bucketArray).1 with
    | none =>
      rw [hanswer] at halloc
      simp only [hanswer, Option.map_none]
      exact ⟨_, halloc, ⟨rfl, rfl⟩, rfl⟩
    | some ptr =>
      rw [hanswer] at halloc
      simp only [hanswer, Option.map_some]
      exact ⟨_, halloc.trans (Callbacks.free_continues _ hashmap.bucketArrayPtr), .grown rfl⟩

/-- The copy of a key is the only block that is allocated for it. -/
theorem hashmapGetKeyToUse_calls (c : HashmapConfig α) (key : Key α) (cb : Callbacks α) :
    (c.copyElements = false ∧ hashmapGetKeyToUse c key cb = (some key, cb)) ∨
      (hashmapGetKeyToUse c key cb = (none, (cb.alloc .element).2) ∧
        cb.Continues (cb.alloc .element).2 [.alloc .element none]) ∨
      ∃ ptr, hashmapGetKeyToUse c key cb = (some { key with ptr }, (cb.alloc .element).2) ∧
        cb.Continues (cb.alloc .element).2 [.alloc .element (some ptr)] := by
  have halloc := cb.alloc_continues .element
  cases hcopy : c.copyElements with
  | false => exact Or.inl ⟨rfl, by simp [hashmapGetKeyToUse, hcopy]⟩
  | true =>
    refine Or.inr ?_
    cases hanswer : (cb.alloc .element).1 with
    | none =>
      rw [hanswer] at halloc
      exact Or.inl ⟨by simp [hashmapGetKeyToUse, hcopy, hanswer], halloc⟩
    | some ptr =>
      rw [hanswer] at halloc
      exact Or.inr ⟨ptr, by simp [hashmapGetKeyToUse, hcopy, hanswer], halloc⟩

/-- A walk over a bucket that fails has asked for a node only. -/
theorem hashmapAddKeyToBucket_calls (c : HashmapConfig α) (key : Key α) (hash : BitVec 64)
    (numElements : ℕ) (cb : Callbacks α) (bucket : List (BucketNode α)) :
    let added := hashmapAddKeyToBucket c key hash numElements cb bucket
    (added.status = -1 ∧ cb.Continues added.callbacks [.alloc .bucketNode none]) ∨
      (added.status = 0 ∧ ∃ new, cb.Continues added.callbacks new) := by
  have halloc := cb.alloc_continues .bucketNode
  dsimp only
  cases hashmapAddKeyToBucket_outcome c key hash numElements cb bucket with
  | failed _ hanswer hadded =>
    rw [hadded]
    rw [hanswer] at halloc
    exact Or.inl ⟨rfl, halloc⟩
  | inserted ptr _ _ hadded =>
    rw [hadded]
    exact Or.inr ⟨rfl, _, halloc⟩
  | replaced _ node _ _ _ hadded =>
    rw [hadded]
    exact Or.inr ⟨rfl, releaseKey_continues c node.key cb⟩

/-- With the key to use at hand, an insertion either adds it or frees what is not the caller's. -/
theorem hashmapAddKey_of_keyToUse {keyToUse : Key α}
    (hkey : hashmapGetKeyToUse c key cb = (some keyToUse, cb')) (hashmap : HashMap α) :
    ((hashmapAddKey c hashmap key cb).1 = -1 ∧ ∃ cb₁,
        cb'.Continues cb₁ [.alloc .bucketNode none] ∧
        (hashmapAddKey c hashmap key cb).2.2 =
          if key.ptr ≠ keyToUse.ptr then cb₁.free keyToUse.ptr else cb₁) ∨
      ((hashmapAddKey c hashmap key cb).1 = 0 ∧
        ∃ new, cb'.Continues (hashmapAddKey c hashmap key cb).2.2 new) := by
  rw [hashmapAddKey, hkey]
  dsimp only
  rcases hashmapAddKeyToBucket_calls c keyToUse (c.getHash keyToUse.contents) hashmap.numElements
      cb' (hashmap.bucketArray (hashmapGetBucket c hashmap (c.getHash keyToUse.contents))) with
    ⟨hstatus, hcont⟩ | ⟨hstatus, new, hcont⟩
  · rw [hstatus, if_pos (by decide)]
    exact Or.inl ⟨rfl, _, hcont, rfl⟩
  · rw [hstatus, if_neg (by decide)]
    exact Or.inr ⟨rfl, new, hcont⟩

/-- An insertion leaves the bucket array where it is. -/
theorem hashmapAddKey_sameTable (c : HashmapConfig α) (hashmap : HashMap α) (key : Key α)
    (cb : Callbacks α) : SameTable hashmap (hashmapAddKey c hashmap key cb).2.1 := by
  obtain ⟨⟨keyToUse, cb₁⟩, hkey⟩ : ∃ x, hashmapGetKeyToUse c key cb = x := ⟨_, rfl⟩
  rw [hashmapAddKey, hkey]
  cases keyToUse with
  | none => exact ⟨rfl, rfl⟩
  | some keyToUse =>
    dsimp only
    split_ifs <;> exact ⟨rfl, rfl⟩

/-- An insertion that fails frees the copy of the key, which is not the key itself. -/
theorem hashmapAddKey_calls (c : HashmapConfig α) (hashmap : HashMap α) (key : Key α)
    (cb : Callbacks α) :
    ∃ new, cb.Continues (hashmapAddKey c hashmap key cb).2.2 new ∧
      ((hashmapAddKey c hashmap key cb).1 = -1 → AddFailedCalls key new) := by
  rcases hashmapGetKeyToUse_calls c key cb with
    ⟨-, hkey⟩ | ⟨hkey, hcont⟩ | ⟨ptr, hkey, hcont⟩
  · rcases hashmapAddKey_of_keyToUse hkey hashmap with
      ⟨-, cb₁, hnode, hlast⟩ | ⟨hstatus, new, hadded⟩
    · rw [if_neg (fun hne => hne rfl)] at hlast
      rw [hlast]
      exact ⟨_, hnode, fun _ => .node⟩
    · exact ⟨new, hadded, fun h => absurd (hstatus.symm.trans h) (by decide)⟩
  · rw [hashmapAddKey, hkey]
    exact ⟨_, hcont, fun _ => .copy⟩
  · rcases hashmapAddKey_of_keyToUse hkey hashmap with
      ⟨-, cb₁, hnode, hlast⟩ | ⟨hstatus, new, hadded⟩
    · refine ⟨_, ?_, fun _ => .nodeOfCopy ptr⟩
      rw [hlast]
      by_cases hptr : key.ptr = ptr
      · subst hptr
        rw [if_neg (fun hne => hne rfl), if_neg (fun hne => hne rfl), List.append_nil]
        exact hcont.trans hnode
      · rw [if_pos hptr, if_pos hptr]
        exact (hcont.trans hnode).trans (Callbacks.free_continues cb₁ ptr)
    · exact ⟨_, hcont.trans hadded, fun h => absurd (hstatus.symm.trans h) (by decide)⟩

/-- **The calls of a set that fails.** The allocator had no block, no key of the caller is released,
and what is freed is the copy of the key, and the old bucket array if the table has grown. -/
theorem hashmapSet_calls (c : HashmapConfig α) (hashmap : HashMap α) (key : Key α)
    (cb : Callbacks α) :
    ∃ new, cb.Continues (hashmapSet c hashmap key cb).2.2 new ∧
      ((hashmapSet c hashmap key cb).1 = -1 →
        FailedCalls key hashmap (hashmapSet c hashmap key cb).2.1 new) := by
  rw [hashmapSet]
  split
  · obtain ⟨new, hresize, hcalls⟩ := hashmapResize_calls c hashmap cb
    dsimp only
    split
    · rename_i hstatus
      rw [if_pos hstatus] at hcalls
      obtain ⟨hsame, rfl⟩ := hcalls
      exact ⟨_, hresize, fun _ => .growth hsame⟩
    · rename_i hstatus
      rw [if_neg hstatus] at hcalls
      obtain ⟨rest, hadd, hfail⟩ :=
        hashmapAddKey_calls c (hashmapResize c hashmap cb).2.1 key (hashmapResize c hashmap cb).2.2
      have hsame := hashmapAddKey_sameTable c (hashmapResize c hashmap cb).2.1 key
        (hashmapResize c hashmap cb).2.2
      exact ⟨_, hresize.trans hadd, fun hstatus => .insertion (hcalls.of_sameTable hsame)
        (hfail hstatus)⟩
  · obtain ⟨new, hadd, hfail⟩ := hashmapAddKey_calls c hashmap key cb
    exact ⟨new, hadd, fun hstatus =>
      .insertion (.kept (hashmapAddKey_sameTable c hashmap key cb)) (hfail hstatus)⟩

/-! ### An allocator that always has a block -/

/-- Every answer is a block. -/
def Callbacks.Working (cb : Callbacks α) : Prop := ∀ n, (cb.answers n).isSome

theorem Callbacks.Continues.working (h : cb.Continues cb' new) (hcb : cb.Working) : cb'.Working :=
  fun n => by rw [h.answers]; exact hcb n

theorem Callbacks.Working.exists_alloc (h : cb.Working) (block : Block) :
    ∃ ptr cb', cb.alloc block = (some ptr, cb') ∧ cb'.Working := by
  obtain ⟨ptr, hptr⟩ := Option.isSome_iff_exists.mp (h cb.numAllocs)
  exact ⟨ptr, (cb.alloc block).2, Prod.ext hptr rfl, (cb.alloc_continues block).working h⟩

/-- A new map is there. -/
theorem hashmapNew_working (h : cb.Working) :
    ∃ hashmap cb', hashmapNew c cb = (some hashmap, cb') ∧ cb'.Working := by
  obtain ⟨ptr, cb₁, hptr, h₁⟩ := h.exists_alloc .hashMap
  obtain ⟨sizesPtr, cb₂, hsizes, h₂⟩ := h₁.exists_alloc .sizes
  obtain ⟨arrayPtr, cb₃, harray, h₃⟩ := h₂.exists_alloc .bucketArray
  simp only [hashmapNew, hptr, hsizes, hashmapAllocateBucketArray, harray, Option.map_some]
  exact ⟨_, cb₃, rfl, h₃⟩

/-- A set succeeds. -/
theorem hashmapSet_working (hshaped : hashmap.Shaped c) (h : cb.Working) (key : Key α) :
    (hashmapSet c hashmap key cb).1 = 0 := by
  cases hashmapSet_outcome hshaped key cb with
  | failed hstatus =>
    obtain ⟨new, hcont, hfail⟩ := hashmapSet_calls c hashmap key cb
    obtain ⟨block, hmem⟩ := (hfail hstatus).refused
    obtain ⟨n, hn⟩ := hcont.failed block hmem
    exact absurd (h n) (by rw [hn]; decide)
  | replaced _ _ _ hstatus => exact hstatus
  | inserted _ _ hstatus => exact hstatus

end Lc3Simulator
