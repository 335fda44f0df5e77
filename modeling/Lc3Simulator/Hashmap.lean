import Mathlib.Data.Int.Notation
import Mathlib.Data.List.Basic
import Mathlib.Logic.Function.Basic

/-!
# The hash map

The functions of `hashmap.c`, in the order of the source. The configuration's callbacks are the
allocator and `free_key`, whose calls are recorded in order, and the pure `get_hash` and `compare`,
which look at the contents of a key. The allocator answers each call as it pleases, with a block or
with `NULL`; an answer that is not `NULL` is a block large enough for what was asked.

A chain of nodes is a list, and a place where the source follows a null link has no result.

## Main definitions

* `HashmapConfig` — `struct hashmap_config`
* `Callbacks` — the answers of the allocator and the calls made so far
* `HashMap` — `struct hashmap`, without the configuration
* `hashmapSet`, `hashmapGet`, `hashmapRemove`, `hashmapToList` — the operations
* `HashMapIterator`, `hashmapIteratorNext` — `struct hashmap_iterator` and one step of it
-/

namespace Lc3Simulator

/-- The address of a block or of an object of the caller. -/
abbrev Ptr := ℕ

/-- A key: the object at an address, with its contents. -/
structure Key (α : Type) where
  ptr : Ptr
  contents : α
  deriving DecidableEq, Repr

/-- `struct hashmap_config`. The load factor is used only to truncate its product with a size to a
number of elements, which is `numElementsGrow`. Positive sizes are the configuration's part. -/
structure HashmapConfig (α : Type) where
  getHash : α → BitVec 64
  compare : α → α → ℤ
  copyElements : Bool
  numElementsGrow : ℕ → ℕ
  sizes : List ℕ
  sizes_ne_nil : sizes ≠ []
  sizes_pos : ∀ size ∈ sizes, 0 < size

/-! ### The callbacks -/

/-- What a block is allocated for, which is what its size says. -/
inductive Block
  | hashMap | sizes | bucketArray | element | bucketNode | elements | iterator
  deriving DecidableEq, Repr

/-- A call of the allocator or of `free_key`. -/
inductive HashmapCallback (α : Type)
  | alloc (block : Block) (answer : Option Ptr)
  | free (ptr : Ptr)
  | freeKey (key : Key α)
  deriving DecidableEq, Repr

/-- The allocator's answers, how many it has given, and the calls so far. -/
structure Callbacks (α : Type) where
  answers : ℕ → Option Ptr
  numAllocs : ℕ
  calls : List (HashmapCallback α)

variable {α : Type}

/-- `allocator->alloc`. -/
def Callbacks.alloc (cb : Callbacks α) (block : Block) : Option Ptr × Callbacks α :=
  (cb.answers cb.numAllocs,
    { cb with
      numAllocs := cb.numAllocs + 1
      calls := cb.calls ++ [.alloc block (cb.answers cb.numAllocs)] })

/-- `allocator->free`. -/
def Callbacks.free (cb : Callbacks α) (ptr : Ptr) : Callbacks α :=
  { cb with calls := cb.calls ++ [.free ptr] }

/-- `hashmap->free_key`. -/
def Callbacks.freeKey (cb : Callbacks α) (key : Key α) : Callbacks α :=
  { cb with calls := cb.calls ++ [.freeKey key] }

/-! ### The map -/

/-- `struct bucket_node`, at its address. The next node is the next one of the list. -/
structure BucketNode (α : Type) where
  ptr : Ptr
  key : Key α
  hash : BitVec 64
  deriving DecidableEq, Repr

/-- `struct hashmap`, with the addresses of its three blocks. A bucket that is `NULL` is empty. -/
structure HashMap (α : Type) where
  ptr : Ptr
  sizesPtr : Ptr
  bucketArrayPtr : Ptr
  bucketArray : ℕ → List (BucketNode α)
  curSize : ℕ
  numElements : ℕ
  numElementsGrow : ℕ

variable (c : HashmapConfig α)

/-- `hashmap->sizes[i]`. -/
def HashmapConfig.size (i : ℕ) : ℕ := c.sizes.getD i 0

/-- `hashmap->sizes[hashmap->cur_size]`. -/
def HashMap.size (hashmap : HashMap α) : ℕ := c.size hashmap.curSize

/-- `hashmap_allocate_bucket_array`. -/
def hashmapAllocateBucketArray (cb : Callbacks α) :
    Option (Ptr × (ℕ → List (BucketNode α))) × Callbacks α :=
  let (bucketArray, cb) := cb.alloc .bucketArray
  (bucketArray.map fun ptr => (ptr, fun _ => []), cb)

/-- `hashmap_new`. -/
def hashmapNew (cb : Callbacks α) : Option (HashMap α) × Callbacks α :=
  match cb.alloc .hashMap with
  | (none, cb) => (none, cb)
  | (some ptr, cb) =>
    match cb.alloc .sizes with
    | (none, cb) => (none, cb.free ptr)
    | (some sizesPtr, cb) =>
      match hashmapAllocateBucketArray cb with
      | (none, cb) => (none, (cb.free sizesPtr).free ptr)
      | (some (bucketArrayPtr, bucketArray), cb) =>
        (some ⟨ptr, sizesPtr, bucketArrayPtr, bucketArray, 0, 0, c.numElementsGrow (c.size 0)⟩, cb)

/-- `hashmap_bucket_node_create`. -/
def hashmapBucketNodeCreate (key : Key α) (hash : BitVec 64) (cb : Callbacks α) :
    Option (BucketNode α) × Callbacks α :=
  let (node, cb) := cb.alloc .bucketNode
  (node.map fun ptr => ⟨ptr, key, hash⟩, cb)

/-- What a walk over a bucket leaves: the status, the bucket and the count of elements. -/
structure Added (α : Type) where
  status : ℤ
  bucket : List (BucketNode α)
  numElements : ℕ
  callbacks : Callbacks α

/-- `hashmap_add_key_to_bucket`. -/
def hashmapAddKeyToBucket (key : Key α) (hash : BitVec 64) (numElements : ℕ) (cb : Callbacks α) :
    List (BucketNode α) → Added α
  | [] =>
    match hashmapBucketNodeCreate key hash cb with
    | (none, cb) => ⟨-1, [], numElements, cb⟩
    | (some node, cb) => ⟨0, [node], numElements + 1, cb⟩
  | node :: next =>
    if c.compare node.key.contents key.contents = 0 then
      let cb := cb.freeKey node.key
      let cb := if c.copyElements then cb.free node.key.ptr else cb
      ⟨0, { node with key } :: next, numElements, cb⟩
    else
      let added := hashmapAddKeyToBucket key hash numElements cb next
      { added with bucket := node :: added.bucket }

/-- `hashmap_get_key_to_use`. -/
def hashmapGetKeyToUse (key : Key α) (cb : Callbacks α) : Option (Key α) × Callbacks α :=
  if c.copyElements then
    let (keyToUse, cb) := cb.alloc .element
    (keyToUse.map fun ptr => { key with ptr }, cb)
  else (some key, cb)

/-- `hashmap_get_bucket`, as the index of the bucket. -/
def hashmapGetBucket (hashmap : HashMap α) (hash : BitVec 64) : ℕ :=
  hash.toNat % hashmap.size c

/-- `hashmap_add_key`. -/
def hashmapAddKey (hashmap : HashMap α) (key : Key α) (cb : Callbacks α) :
    ℤ × HashMap α × Callbacks α :=
  match hashmapGetKeyToUse c key cb with
  | (none, cb) => (-1, hashmap, cb)
  | (some keyToUse, cb) =>
    let hash := c.getHash keyToUse.contents
    let bucket := hashmapGetBucket c hashmap hash
    let added := hashmapAddKeyToBucket c keyToUse hash hashmap.numElements cb
      (hashmap.bucketArray bucket)
    let hashmap := { hashmap with
      bucketArray := Function.update hashmap.bucketArray bucket added.bucket
      numElements := added.numElements }
    if added.status < 0 then
      (-1, hashmap,
        if key.ptr ≠ keyToUse.ptr then added.callbacks.free keyToUse.ptr else added.callbacks)
    else (0, hashmap, added.callbacks)

/-- `hashmap_add_node_to_bucket`. The node has no successor. -/
def hashmapAddNodeToBucket (bucket : List (BucketNode α)) (node : BucketNode α) :
    List (BucketNode α) :=
  bucket ++ [node]

/-- The body of the inner loop of `hashmap_rehash`, over a table of `size` buckets. -/
def hashmapRehashNode (size : ℕ) (bucketArray : ℕ → List (BucketNode α)) (node : BucketNode α) :
    ℕ → List (BucketNode α) :=
  let index := node.hash.toNat % size
  Function.update bucketArray index (hashmapAddNodeToBucket (bucketArray index) node)

/-- `hashmap_rehash`: the nodes of the first `size` buckets of `bucketArray` move into the map. -/
def hashmapRehash (hashmap : HashMap α) (bucketArray : ℕ → List (BucketNode α)) (size : ℕ) :
    HashMap α :=
  { hashmap with
    bucketArray := (List.range size).foldl
      (fun new i => (bucketArray i).foldl (hashmapRehashNode (hashmap.size c)) new)
      hashmap.bucketArray }

/-- `hashmap_resize`. -/
def hashmapResize (hashmap : HashMap α) (cb : Callbacks α) : ℤ × HashMap α × Callbacks α :=
  if hashmap.curSize = c.sizes.length - 1 then (0, hashmap, cb)
  else
    match hashmapAllocateBucketArray cb with
    | (none, cb) => (-1, hashmap, cb)
    | (some (bucketArrayPtr, bucketArray), cb) =>
      let curSize := hashmap.curSize + 1
      let grown := { hashmap with
        curSize, bucketArrayPtr, bucketArray,
        numElementsGrow := c.numElementsGrow (c.size curSize) }
      (0, hashmapRehash c grown hashmap.bucketArray (c.size hashmap.curSize),
        cb.free hashmap.bucketArrayPtr)

/-- `hashmap_find_in_bucket`. -/
def hashmapFindInBucket (bucket : List (BucketNode α)) (key : Key α) : Option (BucketNode α) :=
  bucket.find? fun node => c.compare node.key.contents key.contents = 0

/-- `hashmap_bucket_node_free`. -/
def hashmapBucketNodeFree (node : BucketNode α) (cb : Callbacks α) : Callbacks α :=
  let cb := cb.freeKey node.key
  let cb := if c.copyElements then cb.free node.key.ptr else cb
  cb.free node.ptr

/-- `hashmap_get`. -/
def hashmapGet (hashmap : HashMap α) (key : Key α) : Option (Key α) :=
  let bucket := hashmapGetBucket c hashmap (c.getHash key.contents)
  (hashmapFindInBucket c (hashmap.bucketArray bucket) key).map BucketNode.key

/-- `hashmap_set`. -/
def hashmapSet (hashmap : HashMap α) (key : Key α) (cb : Callbacks α) :
    ℤ × HashMap α × Callbacks α :=
  if hashmap.numElements = hashmap.numElementsGrow then
    let (status, hashmap, cb) := hashmapResize c hashmap cb
    if status < 0 then (-1, hashmap, cb) else hashmapAddKey c hashmap key cb
  else hashmapAddKey c hashmap key cb

/-- The loop of `hashmap_remove_key_from_bucket` at a node with the successors `next`, and the two
assignments after it: the node found and the new successors. A loop that leaves at the end of the
chain has no node to read the successor of. -/
def hashmapUnlinkNext (key : Key α) :
    List (BucketNode α) → Option (BucketNode α × List (BucketNode α))
  | [] => none
  | node :: next =>
    if c.compare node.key.contents key.contents = 0 then some (node, next)
    else (hashmapUnlinkNext key next).map fun found => (found.1, node :: found.2)

/-- `hashmap_remove_key_from_bucket`. -/
def hashmapRemoveKeyFromBucket (bucket : List (BucketNode α)) (key : Key α) (cb : Callbacks α) :
    Option (List (BucketNode α) × Callbacks α) :=
  match bucket with
  | [] => some ([], cb)
  | node :: next =>
    if c.compare node.key.contents key.contents = 0 then
      some (next, hashmapBucketNodeFree c node cb)
    else
      (hashmapUnlinkNext c key next).map fun found =>
        (node :: found.2, hashmapBucketNodeFree c found.1 cb)

/-- `hashmap_remove`. -/
def hashmapRemove (hashmap : HashMap α) (key : Key α) (cb : Callbacks α) :
    Option (HashMap α × Callbacks α) :=
  let bucket := hashmapGetBucket c hashmap (c.getHash key.contents)
  (hashmapRemoveKeyFromBucket c (hashmap.bucketArray bucket) key cb).map fun r =>
    ({ hashmap with bucketArray := Function.update hashmap.bucketArray bucket r.1 }, r.2)

/-! ### Walking over all buckets -/

/-- `hashmap_find_next_bucket_index`. -/
def hashmapFindNextBucketIndex (hashmap : HashMap α) (index : ℕ) : ℕ :=
  let size := hashmap.size c
  ((List.range' (index + 1) (size - (index + 1))).find? fun i =>
    !(hashmap.bucketArray i).isEmpty).getD (max (index + 1) size)

/-- The inner loop of `hashmap_free_internal`. -/
def hashmapFreeChain (callFreeKey : Bool) (bucket : List (BucketNode α)) (cb : Callbacks α) :
    Callbacks α :=
  bucket.foldl (fun cb node =>
    let cb := if callFreeKey then
        let cb := cb.freeKey node.key
        if c.copyElements then cb.free node.key.ptr else cb
      else cb
    cb.free node.ptr) cb

/-- The outer loop of `hashmap_free_internal`. An index grows with each round, so that as many
rounds as there are buckets are enough. -/
def hashmapFreeBuckets (hashmap : HashMap α) (callFreeKey : Bool) :
    ℕ → ℕ → Callbacks α → Callbacks α
  | 0, _, cb => cb
  | rounds + 1, curBucketIndex, cb =>
    if curBucketIndex < hashmap.size c then
      hashmapFreeBuckets hashmap callFreeKey rounds
        (hashmapFindNextBucketIndex c hashmap curBucketIndex)
        (hashmapFreeChain c callFreeKey (hashmap.bucketArray curBucketIndex) cb)
    else cb

/-- `hashmap_free_internal`. -/
def hashmapFreeInternal (hashmap : HashMap α) (callFreeKey : Bool) (cb : Callbacks α) :
    Callbacks α :=
  let cb := hashmapFreeBuckets c hashmap callFreeKey (hashmap.size c) 0 cb
  ((cb.free hashmap.bucketArrayPtr).free hashmap.sizesPtr).free hashmap.ptr

/-- `hashmap_free`. -/
def hashmapFree (hashmap : HashMap α) (cb : Callbacks α) : Callbacks α :=
  hashmapFreeInternal c hashmap true cb

/-! ### Iterators -/

/-- `struct hashmap_iterator`, at its address. A node pointer is the chain from that node on, and a
`cur_node` that was never written is `none`. -/
structure HashMapIterator (α : Type) where
  ptr : Ptr
  hashmap : HashMap α
  curNode : Option (List (BucketNode α))
  index : ℕ
  freeWhenDone : Bool

/-- `hashmap_iterator_find_next_bucket`. -/
def hashmapIteratorFindNextBucket (iterator : HashMapIterator α) : HashMapIterator α :=
  let index := hashmapFindNextBucketIndex c iterator.hashmap iterator.index
  if iterator.hashmap.size c ≤ index then { iterator with index }
  else { iterator with index, curNode := some (iterator.hashmap.bucketArray index) }

/-- `hashmap_iterator_initiate`, for the block at `ptr`. Nothing reads `free_when_done` here, so it
may as well be written first. -/
def hashmapIteratorInitiate (ptr : Ptr) (hashmap : HashMap α) (freeWhenDone : Bool) :
    HashMapIterator α :=
  if (hashmap.bucketArray 0).isEmpty then
    hashmapIteratorFindNextBucket c ⟨ptr, hashmap, none, 0, freeWhenDone⟩
  else ⟨ptr, hashmap, some (hashmap.bucketArray 0), 0, freeWhenDone⟩

/-- `hashmap_iterator_find_next_node`. There is no successor to read of a node that is not there. -/
def hashmapIteratorFindNextNode (iterator : HashMapIterator α) : Option (HashMapIterator α) :=
  match iterator.curNode with
  | none => none
  | some [] => none
  | some [_] => some (hashmapIteratorFindNextBucket c iterator)
  | some (_ :: next) => some { iterator with curNode := some next }

/-- `hashmap_iterator_next`: the key, or `NULL`, and the iterator. -/
def hashmapIteratorNext (iterator : HashMapIterator α) :
    Option (Option (Key α) × HashMapIterator α) :=
  if iterator.hashmap.size c ≤ iterator.index then some (none, iterator)
  else
    match iterator.curNode with
    | none => none
    | some [] => none
    | some (node :: _) =>
      (hashmapIteratorFindNextNode c iterator).map fun iterator => (some node.key, iterator)

/-- `hashmap_to_iterator`. -/
def hashmapToIterator (hashmap : HashMap α) (cb : Callbacks α) :
    Option (HashMapIterator α) × Callbacks α :=
  let (iterator, cb) := cb.alloc .iterator
  (iterator.map fun ptr => hashmapIteratorInitiate c ptr hashmap true, cb)

/-- `hashmap_get_iterator`. -/
def hashmapGetIterator (hashmap : HashMap α) (cb : Callbacks α) :
    Option (HashMapIterator α) × Callbacks α :=
  let (iterator, cb) := cb.alloc .iterator
  (iterator.map fun ptr => hashmapIteratorInitiate c ptr hashmap false, cb)

/-- `hashmap_iterator_free`. -/
def hashmapIteratorFree (iterator : HashMapIterator α) (cb : Callbacks α) : Callbacks α :=
  let cb := if iterator.freeWhenDone then hashmapFree c iterator.hashmap cb else cb
  cb.free iterator.ptr

/-! ### The list of the elements -/

/-- `hashmap_add_element_to_array`. A slot that was never written is `none`, and a write beyond the
array has no result. -/
def hashmapAddElementToArray (array : List (Option α)) (element : α) (index : ℕ) :
    Option (List (Option α)) :=
  if index < array.length then some (array.set index (some element)) else none

/-- The loops of `hashmap_to_list` over the nodes, in their order. -/
def hashmapStoreElements : List (BucketNode α) → List (Option α) → ℕ → Option (List (Option α))
  | [], array, _ => some array
  | node :: nodes, array, curElement => do
    let array ← hashmapAddElementToArray array node.key.contents curElement
    hashmapStoreElements nodes array (curElement + 1)

/-- `hashmap_to_list`: the array and the number it reports, unless there is no array. -/
def hashmapToList (hashmap : HashMap α) (cb : Callbacks α) :
    Option (Option (List (Option α) × ℕ) × Callbacks α) :=
  match cb.alloc .elements with
  | (none, cb) => some (none, cb)
  | (some _, cb) => do
    let nodes := (List.range (hashmap.size c)).flatMap hashmap.bucketArray
    let array ← hashmapStoreElements nodes (List.replicate hashmap.numElements none) 0
    return (some (array, hashmap.numElements), hashmapFreeInternal c hashmap false cb)

end Lc3Simulator
