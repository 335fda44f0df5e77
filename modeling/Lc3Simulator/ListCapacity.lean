import Lc3Simulator.CList
import Lc3Simulator.Library.CString
import Lc3Simulator.Library.Transition

/-!
# Which lists stay inside their blocks

Five functions of the repository make a list. Three of them ask for a capacity that doubles, and
their lists never write past it. The other two ask for one that is multiplied by one: such a list
is good for as many elements as it is made for. The directories of plugins are never more than two,
and there is place for two. The tokens of a command line can be many more than five.

## Main definitions

* `ListOp`, `listStep` — the operations
* `Conforms` — the list is the sequence that it stands for
* `Fits` — how many elements there are at most
* `ListClient` — who makes lists, and with which parameters
* `uiLoopTokens`, `getPluginDirNames` — the two clients whose lists do not grow

## Main results

* `listStep_represents`, `listStep_stuck` — one operation, and where it goes wrong
* `getPluginDirNames_represents` — the directories of plugins
* `list_conforms_iff` — when a list conforms after every operation
-/

namespace Lc3Simulator

open Transition CString

/-! ### Operations -/

/-- An operation on a list. -/
inductive ListOp (α : Type)
  | add (x : α)
  | remove (index : ℕ)
  | clear
  deriving DecidableEq, Repr

/-- What an operation does to a sequence. -/
def ListOp.apply {α : Type} : ListOp α → List α → List α
  | .add x, xs => xs ++ [x]
  | .remove index, xs => xs.eraseIdx index
  | .clear, _ => []

section Operations

variable {α : Type} (al : ListAllocator)

/-- One operation on a list. The status is that of `list_add`. -/
def listStep : ListOp α → CList α → Option (ℤ × CList α)
  | .add x, list => list.add al x
  | .remove index, list => (list.remove index).map fun list => (0, list)
  | .clear, list => some (0, list.clear)

/-- One operation on a list, and on the sequence that the list stands for. -/
def recordedListStep (op : ListOp α) (s : CList α × List α) : Option (ℤ × (CList α × List α)) :=
  (listStep al op s.1).map fun r => (r.1, r.2, op.apply s.2)

/-- If the operation calls `realloc`, the call succeeds. -/
def ReallocSucceeds (op : ListOp α) (s : CList α × List α) : Prop :=
  ∀ x, op = .add x → s.1.ReallocSucceeds al

/-- The sequence after some operations. -/
def elementsAfter (ops : List (ListOp α)) (xs : List α) : List α :=
  ops.foldl (fun xs op => op.apply xs) xs

/-- However many of the operations are done, there are at most `n` elements. -/
def Fits (n : ℕ) (ops : List (ListOp α)) (xs : List α) : Prop :=
  ∀ pre, pre <+: ops → (elementsAfter pre xs).length ≤ n

/-- The number of elements is at most the capacity, and `list_get` returns what is at each index of
the sequence, and `NULL` behind its end. -/
structure Conforms (s : CList α × List α) : Prop where
  numElements_le : s.1.numElements ≤ s.1.capacity
  get : ∀ i, s.1.get i = s.2[i]?.map some

/-- A list whose capacity was `init`, and stays so or doubles. -/
structure Sized (init : ℕ) (list : CList α) (xs : List α) : Prop where
  represents : list.Represents xs
  init_pos : 0 < init
  capacity : list.expandMult = 1 ∧ list.capacity = init ∨
    list.expandMult = 2 ∧ ∃ k, list.capacity = init * 2 ^ k

theorem fits_nil {n : ℕ} {xs : List α} : Fits n [] xs ↔ xs.length ≤ n := by
  constructor
  · exact fun h => h [] List.nil_prefix
  · intro h pre hpre
    rw [List.prefix_nil.mp hpre]
    exact h

theorem fits_cons {n : ℕ} {op : ListOp α} {ops : List (ListOp α)} {xs : List α} :
    Fits n (op :: ops) xs ↔ xs.length ≤ n ∧ Fits n ops (op.apply xs) := by
  constructor
  · intro h
    exact ⟨h [] List.nil_prefix, fun pre hpre => h _ (List.cons_prefix_cons.mpr ⟨rfl, hpre⟩)⟩
  · rintro ⟨hnil, hcons⟩ pre hpre
    rcases List.prefix_cons_iff.mp hpre with rfl | ⟨rest, rfl, hrest⟩
    · exact hnil
    · exact hcons rest hrest

theorem Fits.length_le {n : ℕ} {ops : List (ListOp α)} {xs : List α} (h : Fits n ops xs) :
    xs.length ≤ n := h [] List.nil_prefix

/-- Elements that are added one after the other fit if all of them do. -/
theorem fits_adds {n : ℕ} (ys : List α) {ops : List (ListOp α)} {xs : List α} :
    Fits n (ys.map .add ++ ops) xs ↔ Fits n ops (xs ++ ys) := by
  induction ys generalizing xs with
  | nil => rw [List.map_nil, List.nil_append, List.append_nil]
  | cons y ys ih =>
    rw [List.map_cons, List.cons_append, fits_cons, ListOp.apply, ih, List.append_assoc,
      List.singleton_append]
    refine and_iff_right_of_imp fun h => ?_
    have hle := h.length_le
    rw [List.length_append] at hle
    omega

variable {al} {init : ℕ} {list : CList α} {xs : List α}

theorem Sized.capacity_pos (h : Sized init list xs) : 0 < list.capacity := by
  rcases h.capacity with ⟨-, hfixed⟩ | ⟨-, k, hdoubled⟩
  · exact hfixed ▸ h.init_pos
  · exact hdoubled ▸ Nat.mul_pos h.init_pos (Nat.two_pow_pos k)

/-- A list that does not grow has no more elements than its first capacity. -/
theorem Sized.room (h : Sized init list xs) : list.expandMult = 2 ∨ xs.length ≤ init := by
  rcases h.capacity with ⟨-, hfixed⟩ | ⟨htwo, -⟩
  · rw [← hfixed, ← h.represents.numElements]
    exact Or.inr h.represents.numElements_le
  · exact Or.inl htwo

theorem Sized.conforms (h : Sized init list xs) : Conforms (list, xs) :=
  ⟨h.represents.numElements_le, CList.get_eq h.represents⟩

/-- **One operation.** It comes back and does to the list what it does to the sequence, unless it
adds an element to a full list that does not grow. -/
theorem listStep_represents (h : Sized init list xs) {op : ListOp α}
    (hrealloc : ReallocSucceeds al op (list, xs))
    (hroom : list.expandMult = 2 ∨ (op.apply xs).length ≤ init) :
    ∃ status list', listStep al op list = some (status, list') ∧ Sized init list' (op.apply xs) ∧
      list'.expandMult = list.expandMult := by
  have hpos := h.capacity_pos
  obtain ⟨hrep, hinit, hsize⟩ := h
  cases op with
  | add x =>
    have hspare : list.expandMult = 2 ∨ list.numElements < list.capacity := by
      rcases hsize with ⟨hone, hfixed⟩ | ⟨htwo, -⟩
      · have hle : (xs ++ [x]).length ≤ init := hroom.resolve_left (by omega)
        rw [List.length_append, List.length_singleton] at hle
        rw [hrep.numElements, hfixed]
        exact Or.inr hle
      · exact Or.inl htwo
    obtain ⟨list', hadd, hrep', hmult, hcap⟩ :=
      CList.add_represents hrep hpos (hrealloc x rfl) hspare x
    refine ⟨0, list', hadd, ⟨hrep', hinit, ?_⟩, hmult⟩
    rcases hcap with hcap | ⟨htwo, hdouble⟩
    · rw [hcap, hmult]
      exact hsize
    · obtain ⟨k, hk⟩ := (hsize.resolve_left (by omega)).2
      exact Or.inr ⟨hmult.trans htwo, k + 1, by rw [hdouble, hk, pow_succ, Nat.mul_assoc]⟩
  | remove index =>
    obtain ⟨list', hremove, hrep', hcap, hmult⟩ := CList.remove_represents hrep index
    refine ⟨0, list', by rw [listStep, hremove]; rfl, ⟨hrep', hinit, ?_⟩, hmult⟩
    rw [hcap, hmult]
    exact hsize
  | clear => exact ⟨0, list.clear, rfl, ⟨CList.clear_represents hrep, hinit, hsize⟩, rfl⟩

/-- **Where it goes wrong.** An element too many for a list that does not grow. -/
theorem listStep_stuck (h : Sized init list xs) {op : ListOp α}
    (hrealloc : ReallocSucceeds al op (list, xs)) (hone : list.expandMult = 1)
    (hmany : init < (op.apply xs).length) : listStep al op list = none := by
  have hle : xs.length ≤ init := h.room.resolve_left (by omega)
  obtain ⟨hrep, -, hsize⟩ := h
  have hfixed : list.capacity = init := (hsize.resolve_right (by omega)).2
  cases op with
  | add x =>
    have hfull : list.numElements = list.capacity := by
      rw [ListOp.apply, List.length_append, List.length_singleton] at hmany
      rw [hrep.numElements, hfixed]
      omega
    exact CList.add_of_full hrep (hrealloc x rfl) hone hfull x
  | remove index =>
    have hshorter : (xs.eraseIdx index).length ≤ xs.length :=
      List.length_eraseIdx_le xs index
    rw [ListOp.apply] at hmany
    omega
  | clear => exact absurd hmany (Nat.not_lt_zero init)

/-- **Every sequence of operations**, from a list that is as it should be. -/
theorem safe_iff_room (h : Sized init list xs) {ops : List (ListOp α)}
    (hrealloc : Along (recordedListStep al) (ReallocSucceeds al) ops (list, xs)) :
    Safe (recordedListStep al) Conforms ops (list, xs) ↔
      list.expandMult = 2 ∨ Fits init ops xs := by
  induction ops generalizing list xs with
  | nil =>
    rw [fits_nil]
    exact iff_of_true h.conforms h.room
  | cons op ops ih =>
    obtain ⟨hnow, hlater⟩ := hrealloc
    by_cases hroom : list.expandMult = 2 ∨ (op.apply xs).length ≤ init
    · obtain ⟨status, list', hstep, h', hmult⟩ := listStep_represents h hnow hroom
      have hrecorded : recordedListStep al op (list, xs) = some (status, list', op.apply xs) := by
        rw [recordedListStep, hstep]
        rfl
      have hrest := ih h' (hlater _ _ hrecorded)
      rw [hmult] at hrest
      constructor
      · rintro ⟨-, out, s', hstep', hsafe⟩
        rw [hrecorded] at hstep'
        obtain ⟨-, rfl⟩ := Prod.mk.inj (Option.some.inj hstep')
        refine (hrest.mp hsafe).elim Or.inl fun hfits => ?_
        exact h.room.imp id fun hle => fits_cons.mpr ⟨hle, hfits⟩
      · intro hfits
        refine ⟨h.conforms, status, _, hrecorded, hrest.mpr (hfits.imp id fun hfits => ?_)⟩
        exact (fits_cons.mp hfits).2
    · rw [not_or, Nat.not_le] at hroom
      obtain ⟨hnot, hmany⟩ := hroom
      have hone : list.expandMult = 1 := (h.capacity.resolve_right fun htwo => hnot htwo.1).1
      have hstuck := listStep_stuck h hnow hone hmany
      refine iff_of_false ?_ ?_
      · rintro ⟨-, out, s', hstep', -⟩
        rw [recordedListStep, hstuck] at hstep'
        cases hstep'
      · rintro (htwo | hfits)
        · exact hnot htwo
        · exact absurd (fits_cons.mp hfits).2.length_le (Nat.not_le.mpr hmany)

/-- With a capacity that stays as it is, `realloc` is asked for a size that was granted before. -/
theorem along_reallocSucceeds (hgrants : ∀ size, size < 2 ^ 63 → al.grants size = true)
    (h : Sized init list xs) (hone : list.expandMult = 1) (ops : List (ListOp α)) :
    Along (recordedListStep al) (ReallocSucceeds al) ops (list, xs) := by
  induction ops generalizing list xs with
  | nil => trivial
  | cons op ops ih =>
    have hnow : ReallocSucceeds al op (list, xs) :=
      fun _ _ _ => h.represents.resize_same hgrants hone
    refine ⟨hnow, fun out s' hstep => ?_⟩
    by_cases hroom : (op.apply xs).length ≤ init
    · obtain ⟨status, list', hdone, h', hmult⟩ := listStep_represents h hnow (Or.inr hroom)
      rw [recordedListStep, hdone] at hstep
      obtain ⟨-, rfl⟩ := Prod.mk.inj (Option.some.inj hstep)
      exact ih h' (hmult.trans hone)
    · rw [recordedListStep, listStep_stuck h hnow hone (Nat.lt_of_not_le hroom)] at hstep
      cases hstep

end Operations

/-! ### The clients -/

/-- The lists of the repository. -/
inductive ListClient
  | busAttachments
  | onInputDevices
  | onTickDevices
  | inputTokens
  | pluginDirNames
  deriving DecidableEq, Repr

/-- The size of an element: a pointer, or a `struct bus_attachment`. -/
def ListClient.dataSize : ListClient → ℕ
  | .busAttachments => 16
  | .onInputDevices | .onTickDevices | .inputTokens | .pluginDirNames => 8

def ListClient.initCapacity : ListClient → ℕ
  | .busAttachments | .inputTokens => 5
  | .onInputDevices | .pluginDirNames => 2
  | .onTickDevices => 1

def ListClient.expandMult : ListClient → ℕ
  | .busAttachments | .onInputDevices | .onTickDevices => 2
  | .inputTokens | .pluginDirNames => 1

/-- The call of `list_new`. -/
def ListClient.newList {α : Type} (client : ListClient) (al : ListAllocator) : Option (CList α) :=
  CList.new al client.dataSize client.initCapacity client.expandMult

theorem ListClient.newList_sized {α : Type} {client : ListClient} {al : ListAllocator}
    {list : CList α} (h : client.newList al = some list) :
    Sized client.initCapacity list [] ∧ list.expandMult = client.expandMult := by
  have hpos : 0 < client.dataSize := by cases client <;> decide
  have hinit : 0 < client.initCapacity := by cases client <;> decide
  have hbytes : client.initCapacity * client.dataSize < 2 ^ 63 := by cases client <;> decide
  obtain ⟨hrep, hcap, hmult⟩ := CList.new_represents hpos hbytes h
  refine ⟨⟨hrep, hinit, ?_⟩, hmult⟩
  rw [hcap, hmult]
  cases client with
  | busAttachments | onInputDevices | onTickDevices => exact Or.inr ⟨rfl, 0, rfl⟩
  | inputTokens | pluginDirNames => exact Or.inl ⟨rfl, rfl⟩

/-! ### Command lines -/

/-- The tokens that `tokenize_input` finds. -/
def inputTokens (input : String) : List String :=
  (strtok [' ', ',', '\n'] input.toList).map String.ofList

/-- `tokenize_input`. It does not look at the status of `list_add`. -/
def tokenizeInput (al : ListAllocator) (input : String) (tokens : CList String) :
    Option (CList String) :=
  (inputTokens input).foldlM (fun tokens token => (tokens.add al token).map Prod.snd) tokens

/-- What the loop of `ui_loop` does to the list of tokens, for the lines that the user enters. -/
def uiLoopTokens (al : ListAllocator) (inputs : List String) (tokens : CList String) :
    Option (CList String) :=
  inputs.foldlM (fun tokens input => (tokenizeInput al input tokens).map CList.clear) tokens

/-- The operations on the list of tokens. -/
def commandLineOps (inputs : List String) : List (ListOp String) :=
  inputs.flatMap fun input => (inputTokens input).map .add ++ [.clear]

theorem foldlM_adds {α : Type} (al : ListAllocator) (xs : List α) (list : CList α) :
    (xs.map ListOp.add).foldlM (fun list op => (listStep al op list).map Prod.snd) list =
      xs.foldlM (fun list x => (list.add al x).map Prod.snd) list := by
  rw [List.foldlM_map]
  rfl

/-- The loop does these operations. -/
theorem uiLoopTokens_eq (al : ListAllocator) (inputs : List String) (tokens : CList String) :
    uiLoopTokens al inputs tokens =
      (run (listStep al) (commandLineOps inputs) tokens).map Prod.snd := by
  rw [run_map_snd, uiLoopTokens]
  induction inputs generalizing tokens with
  | nil => rfl
  | cons input inputs ih =>
    rw [List.foldlM_cons, commandLineOps, List.flatMap_cons, List.append_assoc,
      List.foldlM_append, foldlM_adds, ← tokenizeInput]
    cases tokenizeInput al input tokens with
    | none => rfl
    | some tokens => exact ih tokens.clear

theorem fits_commandLineOps {n : ℕ} {inputs : List String} :
    Fits n (commandLineOps inputs) [] ↔ ∀ input ∈ inputs, (inputTokens input).length ≤ n := by
  induction inputs with
  | nil => exact iff_of_true (fits_nil.mpr (Nat.zero_le n)) (List.forall_mem_nil _)
  | cons input inputs ih =>
    rw [commandLineOps, List.flatMap_cons, List.append_assoc, fits_adds, List.nil_append,
      List.singleton_append, fits_cons, ← commandLineOps, List.forall_mem_cons]
    exact and_congr_right fun _ => ih

/-! ### Directories of plugins -/

/-- The names of the directories, with the value of the environment variable `HOME`. -/
def pluginDirNames (home : Option String) : List String :=
  ("/usr/local" ++ "/lc3-simulator/plugins") :: home.toList.map (· ++ "/lc3-simulator/plugins")

/-- `get_plugin_dir_names`. It does not look at what `list_new` and `list_add` return. -/
def getPluginDirNames (al : ListAllocator) (home : Option String) : Option (CList String) := do
  let names ← ListClient.pluginDirNames.newList al
  let (_, names) ← names.add al ("/usr/local" ++ "/lc3-simulator/plugins")
  match home with
  | none => some names
  | some home => do
    let (_, names) ← names.add al (home ++ "/lc3-simulator/plugins")
    return names

theorem length_pluginDirNames_le (home : Option String) : (pluginDirNames home).length ≤ 2 := by
  cases home with
  | none => exact Nat.le_succ 1
  | some home => exact Nat.le_refl 2

theorem fits_pluginDirNames (home : Option String) :
    Fits ListClient.pluginDirNames.initCapacity ((pluginDirNames home).map .add) [] := by
  rw [← List.append_nil (List.map _ _), fits_adds, fits_nil]
  exact length_pluginDirNames_le home

/-- It adds the names to a list. -/
theorem getPluginDirNames_eq (al : ListAllocator) (home : Option String) :
    getPluginDirNames al home = (ListClient.pluginDirNames.newList al).bind fun names =>
      (run (listStep al) ((pluginDirNames home).map .add) names).map Prod.snd := by
  simp only [run_map_snd, foldlM_adds, getPluginDirNames, Option.bind_eq_bind]
  refine congrArg _ (funext fun names => ?_)
  rw [pluginDirNames, List.foldlM_cons]
  cases names.add al ("/usr/local" ++ "/lc3-simulator/plugins") with
  | none => rfl
  | some added =>
    cases home with
    | none => rfl
    | some home =>
      simp only [Option.map_some, Option.bind_some, Option.bind_eq_bind, Option.toList_some,
        List.map_cons, List.map_nil, List.foldlM_cons, List.foldlM_nil, Option.pure_def]
      cases added.2.add al (home ++ "/lc3-simulator/plugins") <;> rfl

/-- Elements that there is place for are added without asking for more. -/
theorem foldlM_add_represents {α : Type} (al : ListAllocator) {list : CList α} {xs : List α}
    (h : list.Represents xs) (ys : List α) (hroom : xs.length + ys.length ≤ list.capacity) :
    ∃ list', ys.foldlM (fun list y => (list.add al y).map Prod.snd) list = some list' ∧
      list'.Represents (xs ++ ys) := by
  induction ys generalizing list xs with
  | nil => exact ⟨list, rfl, by rwa [List.append_nil]⟩
  | cons y ys ih =>
    rw [List.length_cons] at hroom
    have hlt : list.numElements < list.capacity := by
      rw [h.numElements]
      omega
    have hrealloc : list.ReallocSucceeds al := fun hfull => absurd hfull (Nat.ne_of_lt hlt)
    obtain ⟨list₁, hadd, h₁, -, hcap⟩ :=
      CList.add_represents h (by omega) hrealloc (Or.inr hlt) y
    obtain ⟨list', hrest, h'⟩ := ih h₁ (by rw [List.length_append, List.length_singleton]; omega)
    refine ⟨list', ?_, ?_⟩
    · rw [List.foldlM_cons, hadd]
      exact hrest
    · rwa [List.append_assoc, List.singleton_append] at h'

/-- **The directories of plugins** are the main one and the one of the user. -/
theorem getPluginDirNames_represents {al : ListAllocator} {names : CList String}
    (hnew : ListClient.pluginDirNames.newList al = some names) (home : Option String) :
    ∃ names', getPluginDirNames al home = some names' ∧
      names'.Represents (pluginDirNames home) := by
  obtain ⟨hrep, hcap, -⟩ := CList.new_represents (by decide) (by decide) hnew
  have hroom : ([] : List String).length + (pluginDirNames home).length ≤ names.capacity := by
    rw [hcap, List.length_nil, Nat.zero_add]
    exact length_pluginDirNames_le home
  obtain ⟨names', hfold, hrep'⟩ := foldlM_add_represents al hrep (pluginDirNames home) hroom
  refine ⟨names', ?_, hrep'⟩
  rw [getPluginDirNames_eq, hnew, Option.bind_some, run_map_snd, foldlM_adds, hfold]

/-- **When a list conforms.** Of the lists of the repository, and with `realloc` succeeding, those
that double conform after all operations, and the others as long as they have no more elements than
they are made for. For the tokens this says that no command line has more than five. The directories
of plugins are never more than two. -/
theorem list_conforms_iff {α : Type} {al : ListAllocator} (client : ListClient) {list : CList α}
    (hnew : client.newList al = some list) {ops : List (ListOp α)}
    (hrealloc : Along (recordedListStep al) (ReallocSucceeds al) ops (list, [])) :
    (Safe (recordedListStep al) Conforms ops (list, []) ↔
      client.expandMult = 2 ∨ Fits client.initCapacity ops []) ∧
    (∀ inputs, Fits ListClient.inputTokens.initCapacity (commandLineOps inputs) [] ↔
      ∀ input ∈ inputs, (inputTokens input).length ≤ 5) ∧
    ∀ home, Fits ListClient.pluginDirNames.initCapacity ((pluginDirNames home).map .add) [] := by
  obtain ⟨hsized, hmult⟩ := ListClient.newList_sized hnew
  refine ⟨?_, fun inputs => fits_commandLineOps, fits_pluginDirNames⟩
  rw [safe_iff_room hsized hrealloc, hmult]

/-- An allocator that returns a block of any size that an object can have. -/
def largeAllocator : ListAllocator := ⟨fun size => size < 2 ^ 63, fun _ => of_decide_eq_true⟩

/-- The list of tokens of that allocator, when nothing is entered. -/
def noTokens : CList String := ⟨SlotBlock.alloc 5, 8, 0, 5, 1⟩

theorem newList_inputTokens :
    ListClient.inputTokens.newList largeAllocator = some noTokens := rfl

theorem along_noTokens (ops : List (ListOp String)) :
    Along (recordedListStep largeAllocator) (ReallocSucceeds largeAllocator) ops (noTokens, []) :=
  along_reallocSucceeds (fun _ => decide_eq_true)
    (ListClient.newList_sized newList_inputTokens).1 rfl ops

/-- A command line with four tokens. -/
theorem list_conforms_iff_register :
    Safe (recordedListStep largeAllocator) Conforms (commandLineOps ["reg write R1 5\n"])
      (noTokens, []) := by
  have hconforms := list_conforms_iff ListClient.inputTokens newList_inputTokens
    (along_noTokens (commandLineOps ["reg write R1 5\n"]))
  refine hconforms.1.mpr (Or.inr ((hconforms.2.1 _).mpr ?_))
  decide

/-- **One with six** writes the last token behind the block. -/
theorem inputTokens_overflow :
    ListClient.inputTokens.newList largeAllocator = some noTokens ∧
      Along (recordedListStep largeAllocator) (ReallocSucceeds largeAllocator)
        (commandLineOps ["mem write 1 2 3 4\n"]) (noTokens, []) ∧
      tokenizeInput largeAllocator "mem write 1 2 3 4\n" noTokens = none ∧
      ¬ Safe (recordedListStep largeAllocator) Conforms (commandLineOps ["mem write 1 2 3 4\n"])
        (noTokens, []) := by
  refine ⟨rfl, along_noTokens _, by rfl, ?_⟩
  rw [safe_iff_room (ListClient.newList_sized newList_inputTokens).1 (along_noTokens _)]
  rintro (htwo | hfits)
  · cases htwo
  · exact absurd (fits_commandLineOps.mp hfits) (by decide)

end Lc3Simulator
