import Lc3Simulator.Hashmap
import Lc3Simulator.Library.Buckets
import Lc3Simulator.Library.KeyedLookup
import Lc3Simulator.Library.Transition

/-!
# What the operations of the hash map do to its nodes

Each operation is described once, by what becomes of the nodes as a whole: a set leaves them as
they are, gives one of them another key or adds one, and a remove takes one away. That the nodes
sit in the buckets of their hashes is part of the shape of a map and holds for every hash function
and every comparison.

## Main definitions

* `HashMap.nodes` — all nodes, bucket by bucket
* `HashMap.Shaped` — the size in use is one of the table, and every node is in its bucket
* `SetOutcome`, `RemoveOutcome` — what a set and a remove can do
* `HashmapOp`, `hashmapStep`, `HashmapReachable` — sequences of operations on a new map

## Main results

* `hashmapSet_outcome`, `hashmapRemove_outcome` — the operations do one of these things
* `HashmapReachable.shaped` — every map that operations lead to has the shape
-/

namespace Lc3Simulator

open Transition

variable {α : Type} (c : HashmapConfig α)

/-- `compare` finds no difference. -/
def HashmapConfig.Equal (a b : α) : Prop := c.compare a b = 0

instance : DecidableRel c.Equal := fun a b => inferInstanceAs (Decidable (c.compare a b = 0))

/-- The index of the bucket for a node in a table of `size` buckets. -/
def BucketNode.index (size : ℕ) (node : BucketNode α) : ℕ := node.hash.toNat % size

/-- All nodes of the map. -/
def HashMap.nodes (hashmap : HashMap α) : List (BucketNode α) :=
  Buckets.contents (hashmap.size c) hashmap.bucketArray

/-- The shape of a map. -/
structure HashMap.Shaped (hashmap : HashMap α) : Prop where
  curSize_lt : hashmap.curSize < c.sizes.length
  placed : Buckets.Placed (BucketNode.index (hashmap.size c)) hashmap.bucketArray
  numElementsGrow : hashmap.numElementsGrow = c.numElementsGrow (hashmap.size c)

/-- The key that is stored for a key: the same object, or a copy of it. -/
def StoredFor (stored key : Key α) : Prop :=
  stored.contents = key.contents ∧ (c.copyElements = false → stored = key)

variable {c} {hashmap hashmap' : HashMap α} {key : Key α} {cb cb' : Callbacks α}

theorem HashmapConfig.size_pos {i : ℕ} (hi : i < c.sizes.length) : 0 < c.size i := by
  have hsize : c.size i = c.sizes[i] := by simp [HashmapConfig.size, hi]
  rw [hsize]
  exact c.sizes_pos _ (List.getElem_mem hi)

theorem HashMap.Shaped.size_pos (h : hashmap.Shaped c) : 0 < hashmap.size c :=
  HashmapConfig.size_pos h.curSize_lt

theorem HashMap.Shaped.getBucket_lt (h : hashmap.Shaped c) (hash : BitVec 64) :
    hashmapGetBucket c hashmap hash < hashmap.size c :=
  Nat.mod_lt _ h.size_pos

/-- The nodes with a hash are those of its bucket that have it. -/
theorem HashMap.Shaped.mem_nodes_iff (h : hashmap.Shaped c) {node : BucketNode α} :
    node ∈ hashmap.nodes c ↔ node ∈ hashmap.bucketArray (hashmapGetBucket c hashmap node.hash) :=
  h.placed.mem_contents_iff fun _ => Nat.mod_lt _ h.size_pos

/-- A bucket may be given other nodes of its index. -/
theorem HashMap.Shaped.update (h : hashmap.Shaped c) {i : ℕ} {bucket : List (BucketNode α)}
    (hbucket : ∀ node ∈ bucket, node.index (hashmap.size c) = i) (numElements : ℕ) :
    HashMap.Shaped c { hashmap with
      bucketArray := Function.update hashmap.bucketArray i bucket
      numElements } :=
  ⟨h.curSize_lt, h.placed.update hbucket, h.numElementsGrow⟩

/-! ### A new map -/

theorem hashmapNew_eq_some (h : (hashmapNew c cb).1 = some hashmap) :
    hashmap.bucketArray = (fun _ => []) ∧ hashmap.curSize = 0 ∧ hashmap.numElements = 0 ∧
      hashmap.numElementsGrow = c.numElementsGrow (c.size 0) := by
  rw [hashmapNew] at h
  split at h
  · cases h
  · split at h
    · cases h
    · rename_i ptr cb₁ _ _ sizesPtr cb₂ _
      rw [hashmapAllocateBucketArray] at h
      cases hptr : (cb₂.alloc .bucketArray).1 with
      | none => simp [hptr] at h
      | some ptr =>
        simp only [hptr, Option.map_some, Option.some.injEq] at h
        subst h
        exact ⟨rfl, rfl, rfl, rfl⟩

theorem hashmapNew_shaped (h : (hashmapNew c cb).1 = some hashmap) : hashmap.Shaped c := by
  obtain ⟨hbuckets, hcur, -, hgrow⟩ := hashmapNew_eq_some h
  constructor
  · rw [hcur]
    exact List.length_pos_iff.mpr c.sizes_ne_nil
  · rw [hbuckets]
    exact Buckets.placed_empty _
  · rw [hgrow, HashMap.size, hcur]

theorem hashmapNew_nodes (h : (hashmapNew c cb).1 = some hashmap) : hashmap.nodes c = [] := by
  rw [HashMap.nodes, (hashmapNew_eq_some h).1, Buckets.contents_empty]

/-! ### Adding a key to a bucket -/

/-- The calls for a key that is no longer stored. -/
def releaseKey (c : HashmapConfig α) (key : Key α) (cb : Callbacks α) : Callbacks α :=
  if c.copyElements then (cb.freeKey key).free key.ptr else cb.freeKey key

/-- What a walk over a bucket can do. -/
inductive AddOutcome (c : HashmapConfig α) (key : Key α) (hash : BitVec 64) (numElements : ℕ)
    (cb : Callbacks α) (bucket : List (BucketNode α)) (added : Added α) : Prop
  | failed (habsent : ∀ node ∈ bucket, ¬ c.Equal node.key.contents key.contents)
      (hanswer : (cb.alloc .bucketNode).1 = none)
      (hadded : added = ⟨-1, bucket, numElements, (cb.alloc .bucketNode).2⟩)
  | inserted (ptr : Ptr) (habsent : ∀ node ∈ bucket, ¬ c.Equal node.key.contents key.contents)
      (hanswer : (cb.alloc .bucketNode).1 = some ptr)
      (hadded : added =
        ⟨0, bucket ++ [⟨ptr, key, hash⟩], numElements + 1, (cb.alloc .bucketNode).2⟩)
  | replaced (pre : List (BucketNode α)) (node : BucketNode α) (post : List (BucketNode α))
      (hbucket : bucket = pre ++ node :: post) (heq : c.Equal node.key.contents key.contents)
      (hadded : added =
        ⟨0, pre ++ { node with key } :: post, numElements, releaseKey c node.key cb⟩)

theorem hashmapAddKeyToBucket_outcome (c : HashmapConfig α) (key : Key α) (hash : BitVec 64)
    (numElements : ℕ) (cb : Callbacks α) (bucket : List (BucketNode α)) :
    AddOutcome c key hash numElements cb bucket
      (hashmapAddKeyToBucket c key hash numElements cb bucket) := by
  induction bucket with
  | nil =>
    cases hanswer : (cb.alloc .bucketNode).1 with
    | none =>
      refine AddOutcome.failed (fun _ h => absurd h List.not_mem_nil) hanswer ?_
      simp [hashmapAddKeyToBucket, hashmapBucketNodeCreate, hanswer]
    | some ptr =>
      refine AddOutcome.inserted ptr (fun _ h => absurd h List.not_mem_nil) hanswer ?_
      simp [hashmapAddKeyToBucket, hashmapBucketNodeCreate, hanswer]
  | cons node next ih =>
    rw [hashmapAddKeyToBucket]
    by_cases heq : c.compare node.key.contents key.contents = 0
    · rw [if_pos heq]
      exact AddOutcome.replaced [] node next rfl heq rfl
    · rw [if_neg heq]
      have hcons (habsent : ∀ x ∈ next, ¬ c.Equal x.key.contents key.contents) :
          ∀ x ∈ node :: next, ¬ c.Equal x.key.contents key.contents := by
        intro x hx
        rcases List.mem_cons.mp hx with rfl | hx
        · exact heq
        · exact habsent x hx
      cases ih with
      | failed habsent hanswer hadded =>
        rw [hadded]
        exact AddOutcome.failed (hcons habsent) hanswer rfl
      | inserted ptr habsent hanswer hadded =>
        rw [hadded]
        exact AddOutcome.inserted ptr (hcons habsent) hanswer rfl
      | replaced pre found post hbucket hfound hadded =>
        rw [hadded, hbucket]
        exact AddOutcome.replaced (node :: pre) found post rfl hfound rfl

/-! ### Set -/

theorem hashmapGetKeyToUse_stored {stored : Key α}
    (h : hashmapGetKeyToUse c key cb = (some stored, cb')) : StoredFor c stored key := by
  rw [hashmapGetKeyToUse] at h
  cases hcopy : c.copyElements with
  | false =>
    simp only [hcopy, Bool.false_eq_true, if_false, Prod.mk.injEq, Option.some.injEq] at h
    obtain ⟨rfl, -⟩ := h
    exact ⟨rfl, fun _ => rfl⟩
  | true =>
    simp only [hcopy, if_true, Prod.mk.injEq, Option.map_eq_some_iff] at h
    obtain ⟨⟨ptr, -, rfl⟩, -⟩ := h
    exact ⟨rfl, fun h => absurd (hcopy.symm.trans h) (by decide)⟩

/-- The same nodes in a map of the right shape. -/
structure Regrown (c : HashmapConfig α) (hashmap hashmap' : HashMap α) : Prop where
  shaped : hashmap'.Shaped c
  nodes : (hashmap'.nodes c).Perm (hashmap.nodes c)
  numElements : hashmap'.numElements = hashmap.numElements

/-- What a set can do. A key that is not found among the nodes with its hash is new. -/
inductive SetOutcome (c : HashmapConfig α) (hashmap : HashMap α) (key : Key α) (status : ℤ)
    (hashmap' : HashMap α) : Prop
  | failed (hstatus : status = -1) (hregrown : Regrown c hashmap hashmap')
  | replaced (stored : Key α) (node : BucketNode α) (others : List (BucketNode α))
      (hstatus : status = 0) (hshaped : hashmap'.Shaped c) (hstored : StoredFor c stored key)
      (hold : (hashmap.nodes c).Perm (node :: others))
      (heq : c.Equal node.key.contents key.contents)
      (hnew : (hashmap'.nodes c).Perm ({ node with key := stored } :: others))
      (hnum : hashmap'.numElements = hashmap.numElements)
  | inserted (stored : Key α) (ptr : Ptr)
      (hstatus : status = 0) (hshaped : hashmap'.Shaped c) (hstored : StoredFor c stored key)
      (habsent : ∀ node ∈ hashmap.nodes c, node.hash = c.getHash key.contents →
        ¬ c.Equal node.key.contents key.contents)
      (hnew : (hashmap'.nodes c).Perm (⟨ptr, stored, c.getHash key.contents⟩ :: hashmap.nodes c))
      (hnum : hashmap'.numElements = hashmap.numElements + 1)

theorem hashmapAddKey_outcome (h : hashmap.Shaped c) (key : Key α) (cb : Callbacks α) :
    SetOutcome c hashmap key (hashmapAddKey c hashmap key cb).1
      (hashmapAddKey c hashmap key cb).2.1 := by
  rw [hashmapAddKey]
  split
  · exact SetOutcome.failed rfl ⟨h, List.Perm.refl _, rfl⟩
  · rename_i keyToUse cb₁ hkey
    have hstored : StoredFor c keyToUse key := hashmapGetKeyToUse_stored hkey
    have hcontents : keyToUse.contents = key.contents := hstored.1
    simp only [hcontents]
    set hash := c.getHash key.contents
    obtain ⟨others, hold, hupdate⟩ :=
      Buckets.contents_focus (h.getBucket_lt hash) hashmap.bucketArray
    have hplaced : ∀ node ∈ hashmap.bucketArray (hashmapGetBucket c hashmap hash),
        node.index (hashmap.size c) = hashmapGetBucket c hashmap hash := h.placed _
    cases hashmapAddKeyToBucket_outcome c keyToUse hash hashmap.numElements cb₁
        (hashmap.bucketArray (hashmapGetBucket c hashmap hash)) with
    | failed habsent hanswer hadded =>
      rw [hadded, Function.update_eq_self]
      exact SetOutcome.failed rfl ⟨h, List.Perm.refl _, rfl⟩
    | inserted ptr habsent hanswer hadded =>
      rw [hadded]
      refine SetOutcome.inserted keyToUse ptr rfl (h.update ?_ _) hstored ?_ ?_ rfl
      · exact List.forall_mem_append.mpr ⟨hplaced, List.forall_mem_singleton.mpr rfl⟩
      · intro node hnode hhash
        rw [← hcontents]
        rw [h.mem_nodes_iff, hhash] at hnode
        exact habsent node hnode
      · refine (hupdate _).trans ?_
        rw [List.append_assoc]
        exact List.perm_middle.trans (hold.symm.cons _)
    | replaced pre node post hsplit heq hadded =>
      rw [hadded]
      rw [hsplit, List.forall_mem_append, List.forall_mem_cons] at hplaced
      obtain ⟨hpre, hnode, hpost⟩ := hplaced
      have hfront (x : BucketNode α) :
          (pre ++ x :: post ++ others).Perm (x :: (pre ++ post ++ others)) := by
        rw [List.append_assoc, List.append_assoc]
        exact List.perm_middle
      refine SetOutcome.replaced keyToUse node (pre ++ post ++ others) rfl (h.update ?_ _) hstored
        (hold.trans ?_) (hcontents ▸ heq) ((hupdate _).trans (hfront _)) rfl
      · exact List.forall_mem_append.mpr ⟨hpre, List.forall_mem_cons.mpr ⟨hnode, hpost⟩⟩
      · rw [hsplit]
        exact hfront node

/-- `hashmap_rehash` distributes the nodes over the buckets. -/
theorem hashmapRehash_bucketArray (hashmap : HashMap α) (old : ℕ → List (BucketNode α))
    (size : ℕ) :
    (hashmapRehash c hashmap old size).bucketArray =
      (Buckets.contents size old).foldl (Buckets.place (BucketNode.index (hashmap.size c)))
        hashmap.bucketArray :=
  Buckets.foldl_contents size old hashmap.bucketArray

/-- **Growing keeps the nodes.** Whether or not the table grows, the map has the same nodes, and
if the new array cannot be allocated it is the same map. -/
theorem hashmapResize_regrown (h : hashmap.Shaped c) (cb : Callbacks α) :
    Regrown c hashmap (hashmapResize c hashmap cb).2.1 := by
  rw [hashmapResize]
  split
  · exact ⟨h, List.Perm.refl _, rfl⟩
  · rename_i hlast
    rw [hashmapAllocateBucketArray]
    cases hanswer : (cb.alloc .bucketArray).1 with
    | none =>
      simp only [hanswer, Option.map_none]
      exact ⟨h, List.Perm.refl _, rfl⟩
    | some ptr =>
      simp only [hanswer, Option.map_some]
      have hlt : hashmap.curSize + 1 < c.sizes.length := by
        have := h.curSize_lt
        omega
      have hindex (node : BucketNode α) :
          node.index (c.size (hashmap.curSize + 1)) < c.size (hashmap.curSize + 1) :=
        Nat.mod_lt _ (HashmapConfig.size_pos hlt)
      refine ⟨⟨hlt, ?_, rfl⟩, ?_, rfl⟩
      · rw [hashmapRehash_bucketArray]
        exact Buckets.placed_distribute (Buckets.placed_empty _) _
      · rw [HashMap.nodes, hashmapRehash_bucketArray]
        have hperm := Buckets.contents_distribute (hashmap.nodes c) (fun node _ => hindex node)
          fun _ => []
        rw [Buckets.contents_empty, List.append_nil] at hperm
        exact hperm

theorem SetOutcome.of_regrown {grown : HashMap α} {status : ℤ} (hgrown : Regrown c hashmap grown)
    (h : SetOutcome c grown key status hashmap') : SetOutcome c hashmap key status hashmap' := by
  cases h with
  | failed hstatus hregrown =>
    exact SetOutcome.failed hstatus ⟨hregrown.shaped, hregrown.nodes.trans hgrown.nodes,
      hregrown.numElements.trans hgrown.numElements⟩
  | replaced stored node others hstatus hshaped hstored hold heq hnew hnum =>
    exact SetOutcome.replaced stored node others hstatus hshaped hstored
      (hgrown.nodes.symm.trans hold) heq hnew (hnum.trans hgrown.numElements)
  | inserted stored ptr hstatus hshaped hstored habsent hnew hnum =>
    refine SetOutcome.inserted stored ptr hstatus hshaped hstored ?_
      (hnew.trans (hgrown.nodes.cons _)) (by rw [hnum, hgrown.numElements])
    exact fun node hnode => habsent node (hgrown.nodes.mem_iff.mpr hnode)

/-- **Set.** A set fails and keeps the nodes, gives one node another key, or adds a node. -/
theorem hashmapSet_outcome (h : hashmap.Shaped c) (key : Key α) (cb : Callbacks α) :
    SetOutcome c hashmap key (hashmapSet c hashmap key cb).1
      (hashmapSet c hashmap key cb).2.1 := by
  rw [hashmapSet]
  split
  · have hregrown := hashmapResize_regrown h cb
    split
    rename_i status grown cb₁ hresize
    rw [hresize] at hregrown
    split
    · exact SetOutcome.failed rfl hregrown
    · exact (hashmapAddKey_outcome hregrown.shaped key cb₁).of_regrown hregrown
  · exact hashmapAddKey_outcome h key cb

/-! ### Remove -/

/-- What a remove does with a bucket. Only an empty bucket may lack the key. -/
inductive RemoveOutcome (c : HashmapConfig α) (key : Key α) (cb : Callbacks α)
    (bucket : List (BucketNode α)) (result : Option (List (BucketNode α) × Callbacks α)) : Prop
  | empty (hbucket : bucket = []) (hresult : result = some ([], cb))
  | absent (hbucket : bucket ≠ [])
      (habsent : ∀ node ∈ bucket, ¬ c.Equal node.key.contents key.contents)
      (hresult : result = none)
  | removed (pre : List (BucketNode α)) (node : BucketNode α) (post : List (BucketNode α))
      (hbucket : bucket = pre ++ node :: post) (heq : c.Equal node.key.contents key.contents)
      (hresult : result = some (pre ++ post, hashmapBucketNodeFree c node cb))

/-- The walk along the successors finds the first equal one, if there is one. -/
theorem hashmapUnlinkNext_cases (c : HashmapConfig α) (key : Key α)
    (next : List (BucketNode α)) :
    ((∀ node ∈ next, ¬ c.Equal node.key.contents key.contents) ∧
        hashmapUnlinkNext c key next = none) ∨
      ∃ pre node post, next = pre ++ node :: post ∧ c.Equal node.key.contents key.contents ∧
        hashmapUnlinkNext c key next = some (node, pre ++ post) := by
  induction next with
  | nil => exact Or.inl ⟨fun _ h => absurd h List.not_mem_nil, rfl⟩
  | cons node next ih =>
    rw [hashmapUnlinkNext]
    by_cases heq : c.compare node.key.contents key.contents = 0
    · rw [if_pos heq]
      exact Or.inr ⟨[], node, next, rfl, heq, rfl⟩
    · rw [if_neg heq]
      rcases ih with ⟨habsent, hnone⟩ | ⟨pre, found, post, rfl, hfound, hsome⟩
      · refine Or.inl ⟨fun x hx => ?_, by rw [hnone]; rfl⟩
        rcases List.mem_cons.mp hx with rfl | hx
        · exact heq
        · exact habsent x hx
      · exact Or.inr ⟨node :: pre, found, post, rfl, hfound, by rw [hsome]; rfl⟩

theorem hashmapRemoveKeyFromBucket_outcome (c : HashmapConfig α) (key : Key α)
    (cb : Callbacks α) (bucket : List (BucketNode α)) :
    RemoveOutcome c key cb bucket (hashmapRemoveKeyFromBucket c bucket key cb) := by
  cases bucket with
  | nil => exact RemoveOutcome.empty rfl rfl
  | cons node next =>
    rw [hashmapRemoveKeyFromBucket]
    by_cases heq : c.compare node.key.contents key.contents = 0
    · rw [if_pos heq]
      exact RemoveOutcome.removed [] node next rfl heq rfl
    · rw [if_neg heq]
      rcases hashmapUnlinkNext_cases c key next with
        ⟨habsent, hnone⟩ | ⟨pre, found, post, rfl, hfound, hsome⟩
      · refine RemoveOutcome.absent (List.cons_ne_nil _ _) (fun x hx => ?_) (by rw [hnone]; rfl)
        rcases List.mem_cons.mp hx with rfl | hx
        · exact heq
        · exact habsent x hx
      · exact RemoveOutcome.removed (node :: pre) found post rfl hfound (by rw [hsome]; rfl)

/-- The bucket of a key. -/
def HashMap.bucketOf (c : HashmapConfig α) (hashmap : HashMap α) (key : Key α) :
    List (BucketNode α) :=
  hashmap.bucketArray (hashmapGetBucket c hashmap (c.getHash key.contents))

theorem hashmapGet_eq_none_iff :
    hashmapGet c hashmap key = none ↔
      ∀ node ∈ hashmap.bucketOf c key, ¬ c.Equal node.key.contents key.contents := by
  rw [hashmapGet, Option.map_eq_none_iff, hashmapFindInBucket, List.find?_eq_none]
  simp only [decide_eq_true_eq]
  rfl

/-- **Remove.** A remove from an empty bucket changes nothing, a remove of a key that is present
takes one node away, and any other remove follows a null link. -/
theorem hashmapRemove_cases (h : hashmap.Shaped c) (key : Key α) (cb : Callbacks α) :
    (hashmap.bucketOf c key = [] ∧ hashmapRemove c hashmap key cb = some (hashmap, cb)) ∨
      (hashmap.bucketOf c key ≠ [] ∧ hashmapGet c hashmap key = none ∧
        hashmapRemove c hashmap key cb = none) ∨
      ∃ node hashmap', hashmapGet c hashmap key ≠ none ∧
        c.Equal node.key.contents key.contents ∧
        hashmapRemove c hashmap key cb = some (hashmap', hashmapBucketNodeFree c node cb) ∧
        hashmap'.Shaped c ∧ (hashmap.nodes c).Perm (node :: hashmap'.nodes c) ∧
        hashmap'.numElements = hashmap.numElements := by
  have hdef (r : Option (List (BucketNode α) × Callbacks α))
      (hr : hashmapRemoveKeyFromBucket c (hashmap.bucketOf c key) key cb = r) :
      hashmapRemove c hashmap key cb = r.map fun r =>
        ({ hashmap with
          bucketArray := Function.update hashmap.bucketArray
            (hashmapGetBucket c hashmap (c.getHash key.contents)) r.1 }, r.2) := by
    rw [← hr]
    rfl
  cases hashmapRemoveKeyFromBucket_outcome c key cb (hashmap.bucketOf c key) with
  | empty hbucket hresult =>
    refine Or.inl ⟨hbucket, ?_⟩
    rw [hdef _ hresult, Option.map_some, ← hbucket, HashMap.bucketOf, Function.update_eq_self]
  | absent hbucket habsent hresult =>
    exact Or.inr (Or.inl ⟨hbucket, hashmapGet_eq_none_iff.mpr habsent, by rw [hdef _ hresult]; rfl⟩)
  | removed pre node post hbucket heq hresult =>
    obtain ⟨others, hold, hupdate⟩ :=
      Buckets.contents_focus (h.getBucket_lt (c.getHash key.contents)) hashmap.bucketArray
    have hsplit : hashmap.bucketArray (hashmapGetBucket c hashmap (c.getHash key.contents)) =
        pre ++ node :: post := hbucket
    have hpresent : hashmapGet c hashmap key ≠ none := by
      rw [Ne, hashmapGet_eq_none_iff]
      intro habsent
      exact habsent node (hbucket ▸ List.mem_append_right _ List.mem_cons_self) heq
    refine Or.inr (Or.inr ⟨node, _, hpresent, heq, by rw [hdef _ hresult]; rfl,
      h.update ?_ hashmap.numElements, ?_, rfl⟩)
    · have hplaced := h.placed (hashmapGetBucket c hashmap (c.getHash key.contents))
      rw [hsplit, List.forall_mem_append, List.forall_mem_cons] at hplaced
      exact List.forall_mem_append.mpr ⟨hplaced.1, hplaced.2.2⟩
    · rw [hsplit, List.append_assoc] at hold
      have hnew := hupdate (pre ++ post)
      rw [List.append_assoc] at hnew
      exact hold.trans (List.perm_middle.trans (hnew.symm.cons node))

/-! ### Sequences of operations -/

/-- The operations on a map. -/
inductive HashmapOp (α : Type)
  | set (key : Key α)
  | get (key : Key α)
  | remove (key : Key α)
  deriving DecidableEq, Repr

/-- What an operation returns. -/
inductive Reply (α : Type)
  | status (status : ℤ)
  | key (key : Option (Key α))
  | done
  deriving DecidableEq, Repr

/-- Carry an operation out. -/
def hashmapStep (c : HashmapConfig α) :
    HashmapOp α → HashMap α × Callbacks α → Option (Reply α × HashMap α × Callbacks α)
  | .set key, (hashmap, cb) =>
    let (status, hashmap, cb) := hashmapSet c hashmap key cb
    some (.status status, hashmap, cb)
  | .get key, (hashmap, cb) => some (.key (hashmapGet c hashmap key), hashmap, cb)
  | .remove key, (hashmap, cb) => (hashmapRemove c hashmap key cb).map fun r => (.done, r)

/-- The maps that operations on a new map lead to, whatever the allocator answers. -/
def HashmapReachable (c : HashmapConfig α) (hashmap : HashMap α) : Prop :=
  ∃ cb₀ hashmap₀ cb₁ ops outs cb, hashmapNew c cb₀ = (some hashmap₀, cb₁) ∧
    run (hashmapStep c) ops (hashmap₀, cb₁) = some (outs, hashmap, cb)

/-- **One operation.** What an operation that comes back does to the nodes. -/
inductive StepOutcome (c : HashmapConfig α) (hashmap hashmap' : HashMap α) :
    HashmapOp α → Reply α → Prop
  | set (key : Key α) (status : ℤ) (houtcome : SetOutcome c hashmap key status hashmap') :
      StepOutcome c hashmap hashmap' (.set key) (.status status)
  | get (key : Key α) (hsame : hashmap' = hashmap) :
      StepOutcome c hashmap hashmap' (.get key) (.key (hashmapGet c hashmap key))
  | removeEmpty (key : Key α) (hbucket : hashmap.bucketOf c key = []) (hsame : hashmap' = hashmap) :
      StepOutcome c hashmap hashmap' (.remove key) .done
  | removed (key : Key α) (node : BucketNode α) (hpresent : hashmapGet c hashmap key ≠ none)
      (heq : c.Equal node.key.contents key.contents) (hshaped : hashmap'.Shaped c)
      (hnodes : (hashmap.nodes c).Perm (node :: hashmap'.nodes c))
      (hnum : hashmap'.numElements = hashmap.numElements) :
      StepOutcome c hashmap hashmap' (.remove key) .done

/-- A remove that comes back has done what `hashmap_remove` does. -/
theorem hashmapStep_remove {reply : Reply α}
    (hstep : hashmapStep c (.remove key) (hashmap, cb) = some (reply, hashmap', cb')) :
    reply = .done ∧ hashmapRemove c hashmap key cb = some (hashmap', cb') := by
  rw [hashmapStep, Option.map_eq_some_iff] at hstep
  obtain ⟨r, hremove, heq⟩ := hstep
  obtain ⟨rfl, rfl⟩ := Prod.mk.inj heq
  exact ⟨rfl, hremove⟩

theorem hashmapStep_outcome (h : hashmap.Shaped c) {op : HashmapOp α} {reply : Reply α}
    (hstep : hashmapStep c op (hashmap, cb) = some (reply, hashmap', cb')) :
    StepOutcome c hashmap hashmap' op reply := by
  cases op with
  | set key =>
    have hset : some (Reply.status (hashmapSet c hashmap key cb).1,
        (hashmapSet c hashmap key cb).2) =
      some (reply, hashmap', cb') := hstep
    obtain ⟨rfl, hstate⟩ := Prod.mk.inj (Option.some.inj hset)
    have hmap : hashmap' = (hashmapSet c hashmap key cb).2.1 := (congrArg Prod.fst hstate).symm
    rw [hmap]
    exact StepOutcome.set key _ (hashmapSet_outcome h key cb)
  | get key =>
    have hget : some (Reply.key (hashmapGet c hashmap key), hashmap, cb) =
      some (reply, hashmap', cb') := hstep
    obtain ⟨rfl, hstate⟩ := Prod.mk.inj (Option.some.inj hget)
    exact StepOutcome.get key (congrArg Prod.fst hstate).symm
  | remove key =>
    obtain ⟨rfl, hremove⟩ := hashmapStep_remove hstep
    rcases hashmapRemove_cases h key cb with
      ⟨hbucket, hsome⟩ | ⟨-, -, hnone⟩ |
        ⟨node, hashmap₂, hpresent, heq, hsome, hshaped, hnodes, hnum⟩
    · rw [hremove] at hsome
      obtain ⟨rfl, -⟩ := Prod.mk.inj (Option.some.inj hsome)
      exact StepOutcome.removeEmpty key hbucket rfl
    · rw [hremove] at hnone
      cases hnone
    · rw [hremove] at hsome
      obtain ⟨rfl, -⟩ := Prod.mk.inj (Option.some.inj hsome)
      exact StepOutcome.removed key node hpresent heq hshaped hnodes hnum

theorem SetOutcome.shaped {status : ℤ} (h : SetOutcome c hashmap key status hashmap') :
    hashmap'.Shaped c := by
  cases h with
  | failed _ hregrown => exact hregrown.shaped
  | replaced _ _ _ _ hshaped => exact hshaped
  | inserted _ _ _ hshaped => exact hshaped

theorem StepOutcome.shaped {op : HashmapOp α} {reply : Reply α} (h : hashmap.Shaped c)
    (hstep : StepOutcome c hashmap hashmap' op reply) : hashmap'.Shaped c := by
  cases hstep with
  | set _ _ houtcome => exact houtcome.shaped
  | get _ hsame => exact hsame ▸ h
  | removeEmpty _ _ hsame => exact hsame ▸ h
  | removed _ _ _ _ hshaped => exact hshaped

theorem hashmapNew_fst (h : hashmapNew c cb = (some hashmap, cb')) :
    (hashmapNew c cb).1 = some hashmap := by rw [h]

/-- A property that new maps have and operations keep holds of every reachable map. -/
theorem HashmapReachable.induct {I : HashMap α → Prop} (hreach : HashmapReachable c hashmap)
    (hnew : ∀ hashmap cb, (hashmapNew c cb).1 = some hashmap → I hashmap)
    (hstep : ∀ hashmap hashmap' op reply, hashmap.Shaped c → I hashmap →
      StepOutcome c hashmap hashmap' op reply → I hashmap') :
    hashmap.Shaped c ∧ I hashmap := by
  obtain ⟨cb₀, hashmap₀, cb₁, ops, outs, cb, hnew₀, hrun⟩ := hreach
  have hkeep (op : HashmapOp α) (s : HashMap α × Callbacks α) (reply : Reply α)
      (s' : HashMap α × Callbacks α) (hs : s.1.Shaped c ∧ I s.1)
      (h : hashmapStep c op s = some (reply, s')) : s'.1.Shaped c ∧ I s'.1 := by
    have houtcome := hashmapStep_outcome hs.1 h
    exact ⟨houtcome.shaped hs.1, hstep _ _ op reply hs.1 hs.2 houtcome⟩
  have hstart : hashmap₀.Shaped c ∧ I hashmap₀ :=
    ⟨hashmapNew_shaped (hashmapNew_fst hnew₀), hnew _ _ (hashmapNew_fst hnew₀)⟩
  exact run_invariant hkeep hstart hrun

/-- Every map that operations lead to has the shape. -/
theorem HashmapReachable.shaped (h : HashmapReachable c hashmap) : hashmap.Shaped c :=
  (h.induct (I := fun _ => True) (fun _ _ _ => trivial) fun _ _ _ _ _ _ _ => trivial).1

end Lc3Simulator
