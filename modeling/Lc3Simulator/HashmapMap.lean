import Lc3Simulator.HashmapAllocation

/-!
# The hash map is a finite map

If `compare` decides an equivalence and equal keys have equal hashes, then looking a key up in the
bucket of its hash is looking it up among all nodes, of which no two are equal. A set and a remove
then change the answers at the keys equal to the given one and at no others, across any growth of
the table.

A remove of a key that is absent is the exception. If the bucket of its hash is empty nothing
happens, but among colliding keys the walk runs off the end of the chain.

## Main definitions

* `HashmapConfig.Lawful` — the laws of `compare` and `get_hash`
* `lastSet` — the key most recently set and not removed since, from the history

## Main results

* `hashmap_refines_lastSet` — after any operations the answers are those of the history
* `hashmapRemove_exact_iff` — when a remove takes away exactly the given key
* `hashmapSet_atomic` — a set that fails changes no answer and leaks nothing
-/

namespace Lc3Simulator

open Transition KeyedLookup

variable {α : Type} {c : HashmapConfig α} {hashmap hashmap' : HashMap α} {key : Key α}
  {cb cb' : Callbacks α}

/-- `compare` is an equivalence and equal keys hash equally. -/
structure HashmapConfig.Lawful (c : HashmapConfig α) : Prop where
  equivalence : Equivalence c.Equal
  getHash_eq : ∀ {a b}, c.Equal a b → c.getHash a = c.getHash b

/-- The contents of the key of a node. -/
def BucketNode.contents (node : BucketNode α) : α := node.key.contents

/-- Every node has the hash of its key, and no two nodes are equal. -/
structure HashMap.Keyed (c : HashmapConfig α) (hashmap : HashMap α) : Prop where
  hashed : ∀ node ∈ hashmap.nodes c, node.hash = c.getHash node.contents
  distinct : Distinct c.Equal BucketNode.contents (hashmap.nodes c)

/-- The node of a key. -/
def HashMap.find (c : HashmapConfig α) (hashmap : HashMap α) (key : Key α) :
    Option (BucketNode α) :=
  lookup c.Equal BucketNode.contents (hashmap.nodes c) key.contents

/-! ### Answers and nodes -/

/-- **Lookup.** The bucket of a key's hash is as good as all nodes. -/
theorem hashmapGet_eq_find (hc : c.Lawful) (h : hashmap.Shaped c) (hkeyed : hashmap.Keyed c)
    (key : Key α) : hashmapGet c hashmap key = (hashmap.find c key).map BucketNode.key := by
  have hbucket : hashmapFindInBucket c (hashmap.bucketOf c key) key =
      lookup c.Equal BucketNode.contents (hashmap.bucketOf c key) key.contents := rfl
  have hfind : lookup c.Equal BucketNode.contents (hashmap.bucketOf c key) key.contents =
      hashmap.find c key := by
    obtain ⟨others, hold, -⟩ :=
      Buckets.contents_focus (h.getBucket_lt (c.getHash key.contents)) hashmap.bucketArray
    have hall : Distinct c.Equal BucketNode.contents (hashmap.bucketOf c key ++ others) :=
      hkeyed.distinct.perm hc.equivalence hold
    refine lookup_eq_of_subset hc.equivalence hkeyed.distinct (List.pairwise_append.mp hall).1
      (fun node hnode => hold.mem_iff.mpr (List.mem_append_left _ hnode)) fun node hnode heq => ?_
    have hhash : node.hash = c.getHash key.contents :=
      (hkeyed.hashed node hnode).trans (hc.getHash_eq heq)
    rw [h.mem_nodes_iff, hhash] at hnode
    exact hnode
  rw [hashmapGet, ← hfind, ← hbucket]
  rfl

theorem HashMap.find_perm (hc : c.Lawful) (h : hashmap.Keyed c)
    (hnodes : (hashmap.nodes c).Perm (hashmap'.nodes c)) (key : Key α) :
    hashmap.find c key = hashmap'.find c key :=
  lookup_perm hc.equivalence h.distinct hnodes

theorem HashMap.Keyed.perm (hc : c.Lawful) (h : hashmap.Keyed c)
    (hnodes : (hashmap.nodes c).Perm (hashmap'.nodes c)) : hashmap'.Keyed c :=
  ⟨fun node hnode => h.hashed node (hnodes.mem_iff.mpr hnode),
    h.distinct.perm hc.equivalence hnodes⟩

/-- A map that has the node `node` and the nodes of another map finds `node` for its own key, and
for other keys what the other map finds. -/
theorem HashMap.find_cons (hc : c.Lawful) (h : hashmap.Keyed c) {node : BucketNode α}
    {others : List (BucketNode α)} (hnodes : (hashmap.nodes c).Perm (node :: others))
    (key : Key α) :
    hashmap.find c key = if c.Equal node.contents key.contents then some node
      else lookup c.Equal BucketNode.contents others key.contents := by
  rw [HashMap.find, lookup_perm hc.equivalence h.distinct hnodes]
  split
  · rename_i heq
    exact lookup_cons heq
  · rename_i hne
    exact lookup_cons_of_not hne

/-! ### What the operations keep -/

theorem SetOutcome.keyed (hc : c.Lawful) (h : hashmap.Keyed c) {status : ℤ}
    (hset : SetOutcome c hashmap key status hashmap') : hashmap'.Keyed c := by
  cases hset with
  | failed _ hregrown => exact h.perm hc hregrown.nodes.symm
  | replaced stored node others _ _ hstored hold heq hnew _ =>
    have heq' : c.Equal node.contents stored.contents := by rw [hstored.1]; exact heq
    have hdistinct := h.distinct.perm hc.equivalence hold
    have hdistinct' :
        Distinct c.Equal BucketNode.contents ({ node with key := stored } :: others) :=
      hdistinct.replace hc.equivalence heq'
    refine ⟨fun x hx => ?_, hdistinct'.perm hc.equivalence hnew.symm⟩
    rcases List.mem_cons.mp (hnew.mem_iff.mp hx) with rfl | hx
    · exact (h.hashed node (hold.mem_iff.mpr List.mem_cons_self)).trans (hc.getHash_eq heq')
    · exact h.hashed x (hold.mem_iff.mpr (List.mem_cons_of_mem _ hx))
  | inserted stored ptr _ _ hstored habsent hnew _ =>
    refine ⟨fun x hx => ?_, (h.distinct.cons hc.equivalence fun x hx heq => ?_).perm
      hc.equivalence hnew.symm⟩
    · rcases List.mem_cons.mp (hnew.mem_iff.mp hx) with rfl | hx
      · exact congrArg c.getHash hstored.1.symm
      · exact h.hashed x hx
    · have heq' : c.Equal x.contents key.contents := by rw [← hstored.1]; exact heq
      exact habsent x hx ((h.hashed x hx).trans (hc.getHash_eq heq')) heq'

theorem StepOutcome.keyed (hc : c.Lawful) (h : hashmap.Keyed c) {op : HashmapOp α}
    {reply : Reply α} (hstep : StepOutcome c hashmap hashmap' op reply) : hashmap'.Keyed c := by
  cases hstep with
  | set _ _ houtcome => exact houtcome.keyed hc h
  | get _ hsame => exact hsame ▸ h
  | removeEmpty _ _ hsame => exact hsame ▸ h
  | removed _ node _ _ _ hnodes _ =>
    exact ⟨fun x hx => h.hashed x (hnodes.mem_iff.mpr (List.mem_cons_of_mem _ hx)),
      (List.pairwise_cons.mp (h.distinct.perm hc.equivalence hnodes)).2⟩

theorem hashmapNew_keyed (h : (hashmapNew c cb).1 = some hashmap) : hashmap.Keyed c := by
  constructor <;> rw [hashmapNew_nodes h]
  · exact fun _ hmem => absurd hmem List.not_mem_nil
  · exact List.Pairwise.nil

/-- A new map finds nothing. -/
theorem hashmapNew_get (hc : c.Lawful) (h : (hashmapNew c cb).1 = some hashmap) (key : Key α) :
    hashmapGet c hashmap key = none := by
  rw [hashmapGet_eq_find hc (hashmapNew_shaped h) (hashmapNew_keyed h), HashMap.find,
    hashmapNew_nodes h]
  rfl

theorem HashmapReachable.keyed (hc : c.Lawful) (h : HashmapReachable c hashmap) :
    hashmap.Keyed c :=
  (h.induct (fun _ _ => hashmapNew_keyed) fun _ _ _ _ _ hkeyed hstep => hstep.keyed hc hkeyed).2

/-! ### What the operations answer -/

theorem HashmapConfig.Lawful.equal_iff (hc : c.Lawful) {a b : α} (h : c.Equal a b) (d : α) :
    c.Equal a d ↔ c.Equal b d :=
  ⟨fun had => hc.equivalence.trans (hc.equivalence.symm h) had,
    fun hbd => hc.equivalence.trans h hbd⟩

/-- **Set.** A set that fails changes no answer, and one that succeeds is the answer at the keys
equal to the given one and at no others. -/
theorem SetOutcome.get (hc : c.Lawful) (h : hashmap.Shaped c) (hkeyed : hashmap.Keyed c)
    {status : ℤ} (hset : SetOutcome c hashmap key status hashmap') :
    (status = -1 ∧ ∀ k, hashmapGet c hashmap' k = hashmapGet c hashmap k) ∨
      (status = 0 ∧ ∃ stored, StoredFor c stored key ∧ ∀ k, hashmapGet c hashmap' k =
        if c.Equal key.contents k.contents then some stored else hashmapGet c hashmap k) := by
  have hkeyed' := hset.keyed hc hkeyed
  simp only [hashmapGet_eq_find hc h hkeyed, hashmapGet_eq_find hc hset.shaped hkeyed']
  cases hset with
  | failed hstatus hregrown =>
    exact Or.inl ⟨hstatus, fun k => by rw [HashMap.find_perm hc hkeyed' hregrown.nodes]⟩
  | replaced stored node others hstatus _ hstored hold heq hnew _ =>
    refine Or.inr ⟨hstatus, stored, hstored, fun k => ?_⟩
    have hnode : c.Equal node.contents k.contents ↔ c.Equal key.contents k.contents :=
      hc.equal_iff heq k.contents
    have hcontents : BucketNode.contents { node with key := stored } = key.contents := hstored.1
    rw [HashMap.find_cons hc hkeyed' hnew, HashMap.find_cons hc hkeyed hold, hcontents]
    simp only [hnode]
    split <;> rfl
  | inserted stored ptr hstatus _ hstored habsent hnew _ =>
    refine Or.inr ⟨hstatus, stored, hstored, fun k => ?_⟩
    have hcontents : BucketNode.contents ⟨ptr, stored, c.getHash key.contents⟩ = key.contents :=
      hstored.1
    rw [HashMap.find_cons hc hkeyed' hnew, hcontents]
    split <;> rfl

/-- **Remove.** Without the node of a key, the keys equal to it have no answer, and the others have
the answer they had. -/
theorem removed_get (hc : c.Lawful) (h : hashmap.Shaped c) (hkeyed : hashmap.Keyed c)
    (h' : hashmap'.Shaped c) {node : BucketNode α}
    (heq : c.Equal node.key.contents key.contents)
    (hnodes : (hashmap.nodes c).Perm (node :: hashmap'.nodes c)) (k : Key α) :
    hashmapGet c hashmap' k =
      if c.Equal key.contents k.contents then none else hashmapGet c hashmap k := by
  have hdistinct := hkeyed.distinct.perm hc.equivalence hnodes
  have hkeyed' : hashmap'.Keyed c :=
    ⟨fun x hx => hkeyed.hashed x (hnodes.mem_iff.mpr (List.mem_cons_of_mem _ hx)),
      (List.pairwise_cons.mp hdistinct).2⟩
  have hnode : c.Equal node.contents k.contents ↔ c.Equal key.contents k.contents :=
    hc.equal_iff heq k.contents
  rw [hashmapGet_eq_find hc h hkeyed, hashmapGet_eq_find hc h' hkeyed',
    HashMap.find_cons hc hkeyed hnodes]
  split
  · rename_i hk
    rw [HashMap.find, lookup_tail hc.equivalence hdistinct (hnode.mpr hk)]
    rfl
  · rename_i hk
    rw [if_neg fun hk' => hk (hnode.mp hk')]
    rfl

/-- Equal keys have the same answer. -/
theorem hashmapGet_congr (hc : c.Lawful) (h : hashmap.Shaped c) (hkeyed : hashmap.Keyed c)
    {k : Key α} (heq : c.Equal key.contents k.contents) :
    hashmapGet c hashmap key = hashmapGet c hashmap k := by
  rw [hashmapGet_eq_find hc h hkeyed, hashmapGet_eq_find hc h hkeyed, HashMap.find,
    lookup_congr hc.equivalence heq, HashMap.find]

/-! ### The history of a map -/

/-- The key most recently set among those equal to `k` and not removed since, in a history whose
latest operation comes first. -/
def lastSet (c : HashmapConfig α) (k : α) : List (HashmapOp α) → Option (Key α)
  | [] => none
  | .set key :: earlier => if c.Equal key.contents k then some key else lastSet c k earlier
  | .get _ :: earlier => lastSet c k earlier
  | .remove key :: earlier => if c.Equal key.contents k then none else lastSet c k earlier

/-- The answers of a map are those of a history. -/
def Represents (c : HashmapConfig α) (hashmap : HashMap α) (history : List (HashmapOp α)) : Prop :=
  ∀ k, Option.Rel (StoredFor c) (hashmapGet c hashmap k) (lastSet c k.contents history)

/-- One operation is one more entry in the history. -/
theorem StepOutcome.represents (hc : c.Lawful) (h : hashmap.Shaped c) (hkeyed : hashmap.Keyed c)
    {op : HashmapOp α} {reply : Reply α} (hstep : StepOutcome c hashmap hashmap' op reply)
    (hok : reply ≠ .status (-1)) {history : List (HashmapOp α)}
    (hrep : Represents c hashmap history) : Represents c hashmap' (op :: history) := by
  intro k
  cases hstep with
  | set key status houtcome =>
    rcases houtcome.get hc h hkeyed with ⟨rfl, -⟩ | ⟨-, stored, hstored, hget⟩
    · exact absurd rfl hok
    · rw [hget k, lastSet]
      split
      · exact Option.Rel.some hstored
      · exact hrep k
  | get _ hsame =>
    subst hsame
    exact hrep k
  | removeEmpty key hbucket hsame =>
    subst hsame
    rw [lastSet]
    split
    · rename_i heq
      have hnone : hashmapGet c hashmap' key = none :=
        hashmapGet_eq_none_iff.mpr fun node hnode => by rw [hbucket] at hnode; cases hnode
      rw [← hashmapGet_congr hc h hkeyed heq, hnone]
      exact Option.Rel.none
    · exact hrep k
  | removed key node _ heq hshaped hnodes _ =>
    rw [removed_get hc h hkeyed hshaped heq hnodes k, lastSet]
    split
    · exact Option.Rel.none
    · exact hrep k

/-- A key that is removed is present. -/
def RemovesPresent (c : HashmapConfig α) (op : HashmapOp α) (s : HashMap α × Callbacks α) : Prop :=
  ∀ key, op = .remove key → hashmapGet c s.1 key ≠ none

theorem hashmapStep_progress (h : hashmap.Shaped c) (hcb : cb.Working) {op : HashmapOp α}
    (hpresent : RemovesPresent c op (hashmap, cb)) :
    ∃ reply hashmap' cb', hashmapStep c op (hashmap, cb) = some (reply, hashmap', cb') ∧
      cb'.Working ∧ reply ≠ .status (-1) := by
  cases op with
  | set key =>
    obtain ⟨new, hcont, -⟩ := hashmapSet_calls c hashmap key cb
    have hok : Reply.status (hashmapSet c hashmap key cb).1 ≠ (.status (-1) : Reply α) := by
      rw [hashmapSet_working h hcb key]
      simp
    exact ⟨_, _, _, rfl, hcont.working hcb, hok⟩
  | get key => exact ⟨_, _, _, rfl, hcb, by simp⟩
  | remove key =>
    rcases hashmapRemove_cases h key cb with
      ⟨-, hsome⟩ | ⟨-, habsent, -⟩ | ⟨node, hashmap', -, -, hsome, -⟩
    · exact ⟨.done, hashmap, cb, by rw [hashmapStep, hsome]; rfl, hcb, by simp⟩
    · exact absurd habsent (hpresent key rfl)
    · obtain ⟨new, hcont⟩ := hashmapBucketNodeFree_continues c node cb
      exact ⟨.done, hashmap', _, by rw [hashmapStep, hsome]; rfl, hcont.working hcb, by simp⟩

/-- From a map that a history describes, operations lead to a map that the longer history
describes. -/
theorem run_represents (hc : c.Lawful) {ops history : List (HashmapOp α)}
    (h : hashmap.Shaped c) (hkeyed : hashmap.Keyed c) (hcb : cb.Working)
    (hrep : Represents c hashmap history)
    (hpresent : Along (hashmapStep c) (RemovesPresent c) ops (hashmap, cb)) :
    ∃ outs hashmap' cb', run (hashmapStep c) ops (hashmap, cb) = some (outs, hashmap', cb') ∧
      (∀ reply ∈ outs, reply ≠ .status (-1)) ∧ hashmap'.Shaped c ∧ hashmap'.Keyed c ∧
      Represents c hashmap' (ops.reverse ++ history) := by
  induction ops generalizing hashmap cb history with
  | nil => exact ⟨[], hashmap, cb, rfl, fun _ hmem => absurd hmem List.not_mem_nil, h, hkeyed, hrep⟩
  | cons op ops ih =>
    obtain ⟨reply, hashmap₁, cb₁, hstep, hcb₁, hok⟩ := hashmapStep_progress h hcb hpresent.1
    have houtcome := hashmapStep_outcome h hstep
    obtain ⟨outs, hashmap', cb', hrun, houts, hshaped', hkeyed', hrep'⟩ :=
      ih (houtcome.shaped h) (houtcome.keyed hc hkeyed) hcb₁
        (houtcome.represents hc h hkeyed hok hrep) (hpresent.2 _ _ hstep)
    refine ⟨reply :: outs, hashmap', cb', by rw [run_cons, hstep]; simp [hrun], ?_, hshaped',
      hkeyed', ?_⟩
    · intro r hr
      rcases List.mem_cons.mp hr with rfl | hr
      · exact hok
      · exact houts r hr
    · rw [List.reverse_cons, List.append_assoc]
      exact hrep'

/-- **The hash map refines a finite map.** With an allocator that works, any sets and gets and any
removes of keys that are present lead to a map that answers for every key with what is stored for
the equal key most recently set and not removed since. No two nodes are equal, and every node is in
the bucket of its hash. -/
theorem hashmap_refines_lastSet (hc : c.Lawful) (hcb : cb.Working) {new : HashMap α}
    {cb₀ : Callbacks α} (hnew : hashmapNew c cb = (some new, cb₀)) (ops : List (HashmapOp α))
    (hpresent : Along (hashmapStep c) (RemovesPresent c) ops (new, cb₀)) :
    ∃ outs hashmap cb', run (hashmapStep c) ops (new, cb₀) = some (outs, hashmap, cb') ∧
      (∀ reply ∈ outs, reply ≠ .status (-1)) ∧
      (∀ k, Option.Rel (StoredFor c) (hashmapGet c hashmap k)
        (lastSet c k.contents ops.reverse)) ∧
      ((hashmap.nodes c).Pairwise fun x y => ¬ c.Equal x.key.contents y.key.contents) ∧
      ∀ i, ∀ node ∈ hashmap.bucketArray i,
        i < hashmap.size c ∧ node.hash.toNat % hashmap.size c = i := by
  have hnew' := hashmapNew_fst hnew
  have hcb₀ : cb₀.Working := by
    obtain ⟨new', cb', heq, hcb'⟩ := hashmapNew_working (c := c) hcb
    obtain ⟨-, rfl⟩ := Prod.mk.inj (hnew.symm.trans heq)
    exact hcb'
  have hrep : Represents c new [] := by
    intro k
    rw [hashmapNew_get hc hnew' k]
    exact Option.Rel.none
  obtain ⟨outs, hashmap, cb', hrun, houts, hshaped, hkeyed, hrep'⟩ :=
    run_represents hc (hashmapNew_shaped hnew') (hashmapNew_keyed hnew') hcb₀ hrep hpresent
  rw [List.append_nil] at hrep'
  refine ⟨outs, hashmap, cb', hrun, houts, hrep', hkeyed.distinct, fun i node hnode => ?_⟩
  have hi : node.hash.toNat % hashmap.size c = i := hshaped.placed i node hnode
  exact ⟨hi ▸ Nat.mod_lt _ hshaped.size_pos, hi⟩

/-- Numbers that all hash alike, copied or not, with the table sizes of the plugin manager. -/
def collidingConfig (copyElements : Bool) : HashmapConfig ℕ where
  getHash := fun _ => 0
  compare := fun a b => (a : ℤ) - b
  copyElements := copyElements
  numElementsGrow := fun size => 3 * size / 4
  sizes := [11, 23]
  sizes_ne_nil := List.cons_ne_nil _ _
  sizes_pos := by decide

theorem collidingConfig_lawful (copyElements : Bool) : (collidingConfig copyElements).Lawful := by
  have hequal (a b : ℕ) : (collidingConfig copyElements).Equal a b ↔ a = b := by
    show (a : ℤ) - b = 0 ↔ a = b
    omega
  refine ⟨⟨fun a => (hequal a a).mpr rfl, fun h => ?_, fun h h' => ?_⟩, fun _ => rfl⟩
  · exact (hequal _ _).mpr ((hequal _ _).mp h).symm
  · exact (hequal _ _).mpr (((hequal _ _).mp h).trans ((hequal _ _).mp h'))

/-- An allocator that always answers with a new block. -/
def freshBlocks : Callbacks ℕ := ⟨some, 0, []⟩

/-- A new map of colliding numbers, and the callbacks after it was made. -/
def collidingMap : HashMap ℕ := ⟨0, 1, 2, fun _ => [], 0, 0, 8⟩

def collidingCalls (copyElements : Bool) : Callbacks ℕ :=
  (hashmapNew (collidingConfig copyElements) freshBlocks).2

theorem hashmapNew_colliding (copyElements : Bool) :
    hashmapNew (collidingConfig copyElements) freshBlocks =
      (some collidingMap, collidingCalls copyElements) := by
  cases copyElements <;> rfl

theorem hashmap_refines_lastSet_colliding :
    ∃ outs hashmap cb', run (hashmapStep (collidingConfig true))
        [.set ⟨100, 1⟩, .set ⟨101, 2⟩, .set ⟨102, 1⟩, .remove ⟨103, 2⟩]
        (collidingMap, collidingCalls true) = some (outs, hashmap, cb') ∧
      Option.Rel (StoredFor (collidingConfig true))
        (hashmapGet (collidingConfig true) hashmap ⟨104, 1⟩) (some ⟨102, 1⟩) := by
  obtain ⟨outs, hashmap, cb', hrun, -, hget, -⟩ := hashmap_refines_lastSet
    (collidingConfig_lawful true) (fun _ => rfl) (hashmapNew_colliding true)
    [.set ⟨100, 1⟩, .set ⟨101, 2⟩, .set ⟨102, 1⟩, .remove ⟨103, 2⟩] (by
      refine ⟨fun _ h => (by cases h), fun _ _ h => ?_⟩
      obtain ⟨-, rfl⟩ := Prod.mk.inj (Option.some.inj h)
      refine ⟨fun _ h => (by cases h), fun _ _ h => ?_⟩
      obtain ⟨-, rfl⟩ := Prod.mk.inj (Option.some.inj h)
      refine ⟨fun _ h => (by cases h), fun _ _ h => ?_⟩
      obtain ⟨-, rfl⟩ := Prod.mk.inj (Option.some.inj h)
      refine ⟨fun _ h => ?_, fun _ _ _ => trivial⟩
      cases h
      decide)
  exact ⟨outs, hashmap, cb', hrun, hget ⟨104, 1⟩⟩

/-! ### Several numbers -/

/-- Sets of some keys, one after another. -/
def hashmapSetAll (c : HashmapConfig α) (keys : List (Key α)) (s : HashMap α × Callbacks α) :
    HashMap α × Callbacks α :=
  keys.foldl (fun s key => (hashmapSet c s.1 key s.2).2) s

theorem run_sets (c : HashmapConfig α) (keys : List (Key α)) (s : HashMap α × Callbacks α) :
    ∃ outs, run (hashmapStep c) (keys.map .set) s = some (outs, hashmapSetAll c keys s) := by
  induction keys generalizing s with
  | nil => exact ⟨[], rfl⟩
  | cons key keys ih =>
    obtain ⟨outs, hrun⟩ := ih (hashmapSet c s.1 key s.2).2
    refine ⟨.status (hashmapSet c s.1 key s.2).1 :: outs, ?_⟩
    rw [List.map_cons, run_cons, hashmapStep, Option.bind_some, hrun]
    rfl

/-- Nothing is removed. -/
theorem sets_removesPresent (c : HashmapConfig α) (keys : List (Key α))
    (s : HashMap α × Callbacks α) :
    Along (hashmapStep c) (RemovesPresent c) (keys.map .set) s := by
  induction keys generalizing s with
  | nil => trivial
  | cons key keys ih => exact ⟨fun _ h => (by cases h), fun _ s' _ => ih s'⟩

theorem hashmapSetAll_reachable {new : HashMap α} {cb₀ : Callbacks α}
    (hnew : hashmapNew c cb₀ = (some new, cb)) (keys : List (Key α)) :
    HashmapReachable c (hashmapSetAll c keys (new, cb)).1 :=
  have hrun := run_sets c keys (new, cb)
  ⟨cb₀, new, cb, keys.map .set, hrun.choose, _, hnew, hrun.choose_spec⟩

/-- Some numbers, each at an address of its own. -/
def numberKeys (numbers : List ℕ) : List (Key ℕ) :=
  numbers.map fun n => ⟨100 + n, n⟩

/-- Colliding numbers, as many as the table takes. -/
def fullMap : HashMap ℕ :=
  (hashmapSetAll (collidingConfig true) (numberKeys [1, 2, 3, 4, 5, 6, 7, 8])
    (collidingMap, collidingCalls true)).1

theorem fullMap_reachable : HashmapReachable (collidingConfig true) fullMap :=
  hashmapSetAll_reachable (hashmapNew_colliding true) _

/-- Numbers that hash to themselves. -/
def spreadConfig : HashmapConfig ℕ :=
  { collidingConfig false with getHash := BitVec.ofNat 64 }

theorem spreadConfig_lawful : spreadConfig.Lawful := by
  refine ⟨(collidingConfig_lawful false).equivalence, fun {a b} h => congrArg _ ?_⟩
  have hsub : (a : ℤ) - b = 0 := h
  omega

theorem hashmapNew_spread :
    hashmapNew spreadConfig freshBlocks = (some collidingMap, collidingCalls false) := rfl

/-- Numbers in several buckets, with two in one bucket, after the table has grown. -/
def spreadMap : HashMap ℕ :=
  (hashmapSetAll spreadConfig (numberKeys [1, 24, 2, 3, 4, 5, 6, 7, 8])
    (collidingMap, collidingCalls false)).1

theorem spreadMap_reachable : HashmapReachable spreadConfig spreadMap :=
  hashmapSetAll_reachable hashmapNew_spread _

/-! ### Removing any key -/

/-- **A remove takes away exactly the given key** if and only if the key is present or its bucket
is empty. -/
theorem hashmapRemove_exact_iff (hc : c.Lawful) (hreach : HashmapReachable c hashmap)
    (key : Key α) (cb : Callbacks α) :
    (∃ hashmap' cb', hashmapRemove c hashmap key cb = some (hashmap', cb') ∧
        hashmapGet c hashmap' key = none ∧
        (∀ k, ¬ c.Equal key.contents k.contents →
          hashmapGet c hashmap' k = hashmapGet c hashmap k) ∧
        (hashmapGet c hashmap key = none → hashmap' = hashmap)) ↔
      hashmapGet c hashmap key ≠ none ∨ hashmap.bucketOf c key = [] := by
  have h := hreach.shaped
  have hkeyed := hreach.keyed hc
  constructor
  · rintro ⟨hashmap', cb', hsome, -⟩
    rcases hashmapRemove_cases h key cb with ⟨hbucket, -⟩ | ⟨-, -, hnone⟩ | ⟨_, _, hpresent, -⟩
    · exact Or.inr hbucket
    · rw [hsome] at hnone
      cases hnone
    · exact Or.inl hpresent
  · intro hcond
    rcases hashmapRemove_cases h key cb with
      ⟨hbucket, hsome⟩ | ⟨hbucket, habsent, -⟩ |
        ⟨node, hashmap', hpresent, heq, hsome, h', hnodes, -⟩
    · have habsent : hashmapGet c hashmap key = none :=
        hashmapGet_eq_none_iff.mpr fun node hnode => by rw [hbucket] at hnode; cases hnode
      exact ⟨hashmap, cb, hsome, habsent, fun _ _ => rfl, fun _ => rfl⟩
    · exact absurd hcond (not_or.mpr ⟨fun hpresent => hpresent habsent, hbucket⟩)
    · have hget := removed_get hc h hkeyed h' heq hnodes
      refine ⟨hashmap', _, hsome, ?_, fun k hk => ?_, fun habsent => absurd habsent hpresent⟩
      · rw [hget key, if_pos (hc.equivalence.refl _)]
      · rw [hget k, if_neg hk]

/-- A map that holds the number `1` only, and the callbacks after that. -/
def singletonMap (copyElements : Bool) : HashMap ℕ :=
  (hashmapSet (collidingConfig copyElements) collidingMap ⟨100, 1⟩
    (collidingCalls copyElements)).2.1

theorem singletonMap_reachable (copyElements : Bool) :
    HashmapReachable (collidingConfig copyElements) (singletonMap copyElements) :=
  ⟨freshBlocks, collidingMap, collidingCalls copyElements, [.set ⟨100, 1⟩], _, _,
    hashmapNew_colliding copyElements, rfl⟩

theorem hashmapRemove_exact_full :
    ∃ hashmap' cb', hashmapRemove (collidingConfig true) fullMap ⟨200, 4⟩ freshBlocks =
        some (hashmap', cb') ∧
      hashmapGet (collidingConfig true) hashmap' ⟨200, 4⟩ = none ∧
      (∀ k, ¬ (collidingConfig true).Equal 4 k.contents →
        hashmapGet (collidingConfig true) hashmap' k =
          hashmapGet (collidingConfig true) fullMap k) ∧
      (hashmapGet (collidingConfig true) fullMap ⟨200, 4⟩ = none → hashmap' = fullMap) :=
  (hashmapRemove_exact_iff (collidingConfig_lawful true) fullMap_reachable ⟨200, 4⟩
    freshBlocks).mpr (Or.inl (by decide +kernel))

/-- A remove of an absent key that collides with the only one present does not come back. -/
theorem hashmapRemove_absent_collision :
    ∃ (c : HashmapConfig ℕ) (hashmap : HashMap ℕ) (key : Key ℕ) (cb : Callbacks ℕ), c.Lawful ∧
      HashmapReachable c hashmap ∧
      ¬ ∃ hashmap' cb', hashmapRemove c hashmap key cb = some (hashmap', cb') ∧
        hashmapGet c hashmap' key = none ∧
        (∀ k, ¬ c.Equal key.contents k.contents →
          hashmapGet c hashmap' k = hashmapGet c hashmap k) ∧
        (hashmapGet c hashmap key = none → hashmap' = hashmap) := by
  refine ⟨collidingConfig false, singletonMap false, ⟨101, 2⟩, collidingCalls false,
    collidingConfig_lawful false, singletonMap_reachable false, ?_⟩
  rintro ⟨hashmap', cb', hsome, -⟩
  have hnone : hashmapRemove (collidingConfig false) (singletonMap false) ⟨101, 2⟩
    (collidingCalls false) = none := rfl
  rw [hnone] at hsome
  cases hsome

/-! ### Failing allocations -/

/-- The calls made during a set. -/
def setCalls (c : HashmapConfig α) (hashmap : HashMap α) (key : Key α) (cb : Callbacks α) :
    List (HashmapCallback α) :=
  (hashmapSet c hashmap key cb).2.2.calls.drop cb.calls.length

/-- **A set that fails is atomic.** It changes no answer and not the count, keeps the nodes and
releases no key, provided that the allocator does not hand out the object of the caller's key. What
it frees is the copy of the key, if it has made one, and the old bucket array, if it has allocated
another one for the map; each once, and nothing else. Every set with an allocator that works
succeeds afterwards. -/
theorem hashmapSet_atomic (hc : c.Lawful) (hreach : HashmapReachable c hashmap) (key : Key α)
    (cb : Callbacks α) (hfail : (hashmapSet c hashmap key cb).1 = -1)
    (hfresh : ∀ block, .alloc block (some key.ptr) ∉ setCalls c hashmap key cb) :
    (∀ k, hashmapGet c (hashmapSet c hashmap key cb).2.1 k = hashmapGet c hashmap k) ∧
      (hashmapSet c hashmap key cb).2.1.numElements = hashmap.numElements ∧
      ((hashmapSet c hashmap key cb).2.1.nodes c).Perm (hashmap.nodes c) ∧
      (∀ k, .freeKey k ∉ setCalls c hashmap key cb) ∧
      (elementBlocks (setCalls c hashmap key cb)).length ≤ 1 ∧
      freedBlocks (setCalls c hashmap key cb) =
        (if (hashmapSet c hashmap key cb).2.1.curSize = hashmap.curSize then []
          else [hashmap.bucketArrayPtr]) ++ elementBlocks (setCalls c hashmap key cb) ∧
      (if (hashmapSet c hashmap key cb).2.1.curSize = hashmap.curSize then
        (hashmapSet c hashmap key cb).2.1.bucketArrayPtr = hashmap.bucketArrayPtr
      else .alloc .bucketArray (some (hashmapSet c hashmap key cb).2.1.bucketArrayPtr) ∈
        setCalls c hashmap key cb) ∧
      ∀ later working, working.Working →
        (hashmapSet c (hashmapSet c hashmap key cb).2.1 later working).1 = 0 ∧
        ∃ stored, StoredFor c stored later ∧
          ∀ k, hashmapGet c (hashmapSet c (hashmapSet c hashmap key cb).2.1 later working).2.1 k =
            if c.Equal later.contents k.contents then some stored else hashmapGet c hashmap k := by
  have h := hreach.shaped
  have hkeyed := hreach.keyed hc
  have hset := hashmapSet_outcome h key cb
  obtain ⟨new, hcont, hcalls⟩ := hashmapSet_calls c hashmap key cb
  have hnew : setCalls c hashmap key cb = new := by
    rw [setCalls, hcont.calls, List.drop_left]
  rw [hnew] at hfresh ⊢
  have hfailed := hcalls hfail
  obtain ⟨hkeys, hblocks, hfreed⟩ := hfailed.freed (hfresh .element)
  have hsame : ∀ k, hashmapGet c (hashmapSet c hashmap key cb).2.1 k = hashmapGet c hashmap k := by
    rcases hset.get hc h hkeyed with ⟨-, hsame⟩ | ⟨hzero, -⟩
    · exact hsame
    · exact absurd (hzero.symm.trans hfail) (by decide)
  have hregrown : Regrown c hashmap (hashmapSet c hashmap key cb).2.1 := by
    cases hset with
    | failed _ hregrown => exact hregrown
    | replaced _ _ _ hzero => exact absurd (hzero.symm.trans hfail) (by decide)
    | inserted _ _ hzero => exact absurd (hzero.symm.trans hfail) (by decide)
  refine ⟨hsame, hregrown.numElements, hregrown.nodes, hkeys, hblocks, hfreed,
    hfailed.bucketArray, ?_⟩
  intro later working hworking
  have hok := hashmapSet_working hregrown.shaped hworking later
  refine ⟨hok, ?_⟩
  rcases (hashmapSet_outcome hregrown.shaped later working).get hc hregrown.shaped
    (hset.keyed hc hkeyed) with ⟨hbad, -⟩ | ⟨-, stored, hstored, hget⟩
  · exact absurd (hok.symm.trans hbad) (by decide)
  · exact ⟨stored, hstored, fun k => by rw [hget k, hsame k]⟩

/-- An allocator with two more blocks: a new bucket array and the copy of a key take them. -/
def twoBlocks : Callbacks ℕ := ⟨fun n => if n < 2 then some (n + 7) else none, 0, []⟩

theorem hashmapSet_atomic_twoBlocks :
    (∀ k, hashmapGet (collidingConfig true)
        (hashmapSet (collidingConfig true) fullMap ⟨200, 9⟩ twoBlocks).2.1 k =
      hashmapGet (collidingConfig true) fullMap k) ∧
      freedBlocks (setCalls (collidingConfig true) fullMap ⟨200, 9⟩ twoBlocks) =
        [fullMap.bucketArrayPtr, 8] := by
  have hfresh : ∀ block, .alloc block (some 200) ∉
      setCalls (collidingConfig true) fullMap ⟨200, 9⟩ twoBlocks := by
    intro block
    cases block <;> decide +kernel
  have h := hashmapSet_atomic (collidingConfig_lawful true) fullMap_reachable ⟨200, 9⟩ twoBlocks
    (by decide +kernel) hfresh
  refine ⟨h.1, h.2.2.2.2.2.1.trans ?_⟩
  decide +kernel

/-- Numbers that are all equal, and hash to themselves. -/
def blurredConfig : HashmapConfig ℕ where
  getHash := BitVec.ofNat 64
  compare := fun _ _ => 0
  copyElements := false
  numElementsGrow := id
  sizes := [1, 2]
  sizes_ne_nil := List.cons_ne_nil _ _
  sizes_pos := by decide

/-- A new map with these numbers. -/
def blurredNew : HashMap ℕ :=
  ⟨0, 1, 2, fun _ => [], 0, 0, 1⟩

/-- The map of the number `0`. -/
def blurredMap : HashMap ℕ :=
  (hashmapSet blurredConfig blurredNew ⟨100, 0⟩ (hashmapNew blurredConfig freshBlocks).2).2.1

/-- An allocator with one more block, which a new bucket array takes. -/
def oneBlock : Callbacks ℕ := ⟨fun n => if n = 0 then some 7 else none, 0, []⟩

/-- If equal keys do not hash equally, a set that fails may lose them: it has grown the table, and
the key that was found in the only bucket is looked for in another one. -/
theorem hashmapSet_blurred :
    ∃ (c : HashmapConfig ℕ) (hashmap : HashMap ℕ) (key : Key ℕ) (cb : Callbacks ℕ),
      HashmapReachable c hashmap ∧ (hashmapSet c hashmap key cb).1 = -1 ∧
      (∀ block, .alloc block (some key.ptr) ∉ setCalls c hashmap key cb) ∧
      ¬ ∀ k, hashmapGet c (hashmapSet c hashmap key cb).2.1 k = hashmapGet c hashmap k := by
  refine ⟨blurredConfig, blurredMap, ⟨101, 1⟩, oneBlock, ?_, by decide +kernel, fun block => ?_,
    fun hsame => ?_⟩
  · exact ⟨freshBlocks, blurredNew, _, [.set ⟨100, 0⟩], _, _, rfl, rfl⟩
  · cases block <;> decide +kernel
  · have hlost := hsame ⟨102, 1⟩
    revert hlost
    decide +kernel

end Lc3Simulator
