import Lc3Simulator.HashmapRelease
import Lc3Simulator.Library.Resources
import Lc3Simulator.PluginShadowing
import Mathlib.Algebra.BigOperators.Group.List.Basic
import Mathlib.Tactic.Abel

/-!
# What the plugin manager gives back

Loading a plugin allocates two strings, opens a library and makes a device; the entry that has all
of them is copied into the map, and `pm_free` gives them back through the map. In between something
may fail, and what was acquired by then has to be given back at once.

Here are the functions of `plugin_manager.c` once more, with the resources that they use. Everything
is given back once, and each device before its library is closed; but for one string. The name of a
file that is passed over, since a plugin of its name is registered, is never freed.

## Main definitions

* `PmResource`, `needs` — the resources, and what must be held for them
* `pmLoadPluginUses`, `pmLoadDevicePluginsUses`, `pmFreeUses` — the uses of the functions
* `passedOver`, `triedFiles` — the names of the files that are passed over, and the files
* `PluginManager.held` — what the entries of the map hold

## Main results

* `pmLoadPluginUses_lawful` — one file
* `pmFreeUses_lawful` — freeing the manager
* `plugins_released` — from the new manager to the end
-/

namespace Lc3Simulator

open CString Resources Transition

/-! ### Resources -/

/-- A resource of the plugin manager: a string, a library that is open, a device that was made by a
library, or a directory that is open. -/
inductive PmResource
  | name (name : String)
  | path (path : String)
  | library (dlhandle : Ptr)
  | device (dlhandle device : Ptr)
  | directory (path : String)
  deriving DecidableEq, Repr

/-- A device is made and freed by functions of its library. -/
def needs : PmResource → Multiset PmResource
  | .device dlhandle _ => {.library dlhandle}
  | .name _ | .path _ | .library _ | .directory _ => 0

/-- `pm_load_plugin_lib`, with `pm_init_plugin`. -/
def pmLoadPluginLibUses : LoadResult → List (Use PmResource)
  | .failed _ => []
  | .opened dlhandle (.device device) =>
    [.acquire (.library dlhandle), .acquire (.device dlhandle device)]
  | .opened dlhandle (.notFound _) | .opened dlhandle (.failed _) =>
    [.acquire (.library dlhandle), .release (.library dlhandle)]

/-- `pm_free_key`. -/
def pmFreeKeyUses (entry : PluginManagerEntry) : List (Use PmResource) :=
  [.release (.name entry.name), .release (.path entry.path),
    .release (.device entry.dlhandle entry.device), .release (.library entry.dlhandle)]

/-- The calls of `pm_free_key` that an operation of the map has made. -/
def freeKeyUses (before after : Callbacks PluginManagerEntry) : List (Use PmResource) :=
  (releasedKeys (before.since after)).flatMap fun key => pmFreeKeyUses key.contents

/-- `pm_load_plugin`. -/
def pmLoadPluginUses (entryPtr : Ptr) (load : LoadResult) (pm : PluginManager) (path : List Char) :
    Option (List (Use PmResource)) := do
  let name ← getBasename path path.length
  let entry : PluginManagerEntry := ⟨0, String.ofList name, "", 0⟩
  match hashmapGet pluginsConfig pm.hashmap ⟨entryPtr, entry⟩ with
  | some _ => return [.acquire (.name entry.name)]
  | none =>
    let uses := [.acquire (.name entry.name), .acquire (.path (String.ofList path))] ++
      pmLoadPluginLibUses load
    let (status, entry, _) := pmLoadPluginLib pm load { entry with path := String.ofList path }
    if status < 0 then return uses ++ [.release (.name entry.name), .release (.path entry.path)]
    else
      let (_, _, callbacks) := hashmapSet pluginsConfig pm.hashmap ⟨entryPtr, entry⟩ pm.callbacks
      return uses ++ freeKeyUses pm.callbacks callbacks

section Directories

variable (pathMax : ℕ) (entryPtr : Ptr) (extension : String)

/-- The body of the loop of `pm_load_device_plugins_from_dir`. -/
def pmLoadDirEntryUses (dirPath : String) (pm : PluginManager) (dp : DirEntry) :
    Option (List (Use PmResource)) :=
  if strcmp dp.dName.toList ['.'] = 0 ∨ strcmp dp.dName.toList ['.', '.'] = 0 then some []
  else do
    match ← buildPath pathMax dirPath.toList dp.dName.toList with
    | none => return []
    | some path =>
      if !checkExtension path extension.toList then return []
      else
        match dp.stat with
        | .failed _ | .directory => return []
        | .file => pmLoadPluginUses entryPtr dp.load pm path

/-- `pm_load_device_plugins_from_dir`. -/
def pmLoadDevicePluginsFromDirUses (pm : PluginManager) (dir : PluginDirectory) :
    Option (List (Use PmResource)) :=
  match dir.opendir with
  | .failed _ => some []
  | .opened entries _ => do
    let (_, uses) ← entries.foldlM (logged (pmLoadDirEntry pathMax entryPtr extension dir.path)
      (pmLoadDirEntryUses pathMax entryPtr extension dir.path)) (pm, [])
    return [.acquire (.directory dir.path)] ++ uses ++ [.release (.directory dir.path)]

/-- `pm_load_device_plugins`, from the last directory to the first. -/
def pmLoadDevicePluginsUses (dirs : List PluginDirectory) (pm : PluginManager) :
    Option (List (Use PmResource)) := do
  let (_, uses) ← dirs.reverse.foldlM
    (logged (pmLoadDevicePluginsFromDir pathMax entryPtr extension)
      (pmLoadDevicePluginsFromDirUses pathMax entryPtr extension)) (pm, [])
  return uses

end Directories

/-- `pm_free`. -/
def pmFreeUses (pm : PluginManager) : List (Use PmResource) :=
  freeKeyUses pm.callbacks (hashmapFree pluginsConfig pm.hashmap pm.callbacks)

/-! ### Files that are passed over -/

/-- A file whose loading is tried: its name, and what it is listed as, if it can be loaded. -/
structure PluginFile where
  name : String
  plugin : Option PmDeviceData
  deriving DecidableEq, Repr

namespace PluginDirectory

variable (dir : PluginDirectory) (pathMax : ℕ) (extension : String)

/-- An entry is tried if it is a file with the extension, and its path is not too long. -/
def file (dp : DirEntry) : Option PluginFile :=
  if dp.dName.toList ≠ ['.'] ∧ dp.dName.toList ≠ ['.', '.'] ∧
      (dir.filePath dp.dName).toList.length < pathMax ∧
      checkExtension (dir.filePath dp.dName).toList extension.toList ∧ dp.stat = .file then
    some ⟨dp.dName, dp.load.device.map fun device => ⟨dp.dName, dir.filePath dp.dName, device⟩⟩
  else none

/-- The files of the directory that are tried. -/
def files : List PluginFile := dir.entries.filterMap (dir.file pathMax extension)

end PluginDirectory

/-- The plugins among some files. -/
def pluginsOf (files : List PluginFile) : List PmDeviceData := files.filterMap PluginFile.plugin

/-- The names of the files that are passed over: those of which an earlier file was loaded. -/
def passedOver (earlier : List PluginFile) : List PluginFile → List String
  | [] => []
  | file :: later =>
    (if ∃ data ∈ pluginsOf earlier, data.name = file.name then [file.name] else []) ++
      passedOver (earlier ++ [file]) later

theorem passedOver_concat (earlier files : List PluginFile) (file : PluginFile) :
    passedOver earlier (files ++ [file]) = passedOver earlier files ++
      if ∃ data ∈ pluginsOf (earlier ++ files), data.name = file.name then [file.name] else [] := by
  induction files generalizing earlier with
  | nil => rw [List.nil_append, passedOver, passedOver, passedOver, List.append_nil,
      List.append_nil, List.nil_append]
  | cons first files ih =>
    rw [List.cons_append, passedOver, passedOver, ih, ← List.append_cons, List.append_assoc]

theorem pluginsOf_concat (files : List PluginFile) (file : PluginFile) :
    pluginsOf (files ++ [file]) = pluginsOf files ++ file.plugin.toList := by
  rw [pluginsOf, List.filterMap_append, pluginsOf]
  cases hplugin : file.plugin with
  | none => rw [List.filterMap_cons_none hplugin]; rfl
  | some data => rw [List.filterMap_cons_some hplugin]; rfl

/-- A name that is passed over is that of a plugin. -/
theorem exists_plugin_of_passedOver {earlier files : List PluginFile} {name : String}
    (h : name ∈ passedOver earlier files) :
    ∃ data ∈ pluginsOf (earlier ++ files), data.name = name := by
  induction files generalizing earlier with
  | nil => cases h
  | cons file later ih =>
    rcases List.mem_append.mp h with hfile | hlater
    · split_ifs at hfile with hearlier
      · obtain ⟨data, hdata, hname⟩ := hearlier
        obtain rfl := List.mem_singleton.mp hfile
        refine ⟨data, ?_, hname⟩
        rw [pluginsOf, List.filterMap_append]
        exact List.mem_append_left _ hdata
      · cases hfile
    · rw [List.append_cons]
      exact ih hlater

/-! ### What is held -/

/-- What an entry of the map holds. -/
def PluginManagerEntry.held (entry : PluginManagerEntry) : Multiset PmResource :=
  {.name entry.name, .path entry.path, .device entry.dlhandle entry.device,
    .library entry.dlhandle}

/-- The entries of the map. -/
def PluginManager.entries (pm : PluginManager) : List PluginManagerEntry :=
  ((pm.hashmap.nodes pluginsConfig).map BucketNode.key).map Key.contents

/-- What the entries of the map hold. -/
def PluginManager.held (pm : PluginManager) : Multiset PmResource :=
  (pm.entries.map PluginManagerEntry.held).sum

/-- A string is acquired and released whatever is held. -/
theorem needs_le_of_zero {r : PmResource} (h : needs r = 0) (held : Multiset PmResource) :
    needs r ≤ held := h ▸ Multiset.zero_le held

/-- A device is used while its library is open. -/
theorem needs_device_le (dlhandle device : Ptr) :
    needs (.device dlhandle device) ≤ {.library dlhandle} := le_rfl

/-- `pm_free_key` gives back what the entry holds. -/
theorem pmFreeKeyUses_lawful (entry : PluginManagerEntry) :
    Lawful needs (pmFreeKeyUses entry) entry.held 0 :=
  (lawful_release (needs_le_of_zero rfl _)).append
    ((lawful_release (needs_le_of_zero rfl _)).append
      ((lawful_release (needs_device_le _ _)).append
        (lawful_release (needs_le_of_zero rfl 0))))

/-- Loading a library acquires it with the device, or nothing. -/
theorem pmLoadPluginLibUses_lawful (load : LoadResult) :
    (∃ dlhandle device, load.device = some device ∧
      (∀ pm entry, pmLoadPluginLib pm load entry = (0, { entry with dlhandle, device }, pm)) ∧
      Lawful needs (pmLoadPluginLibUses load) 0 {.device dlhandle device, .library dlhandle}) ∨
    load.device = none ∧ Lawful needs (pmLoadPluginLibUses load) 0 0 := by
  cases load with
  | failed dlerror => exact Or.inr ⟨rfl, lawful_nil 0⟩
  | opened dlhandle init =>
    have hopen : Lawful needs [.acquire (.library dlhandle)] 0 {.library dlhandle} :=
      lawful_acquire (needs_le_of_zero rfl 0)
    cases init with
    | notFound dlerror =>
      exact Or.inr ⟨rfl, hopen.append (lawful_release (needs_le_of_zero rfl 0))⟩
    | failed errorText =>
      exact Or.inr ⟨rfl, hopen.append (lawful_release (needs_le_of_zero rfl 0))⟩
    | device device =>
      exact Or.inl ⟨dlhandle, device, rfl, fun _ _ => rfl,
        hopen.append (lawful_acquire (needs_device_le _ _))⟩

/-- The strings of an entry stay as they are. -/
theorem pmLoadPluginLib_strings (pm : PluginManager) (load : LoadResult)
    (entry : PluginManagerEntry) : (pmLoadPluginLib pm load entry).2.1.name = entry.name ∧
      (pmLoadPluginLib pm load entry).2.1.path = entry.path := by
  cases load with
  | failed dlerror => exact ⟨rfl, rfl⟩
  | opened dlhandle init => cases init <;> exact ⟨rfl, rfl⟩

/-! ### Loading -/

/-- The names of some files, as they are held. -/
def heldNames (names : List String) : Multiset PmResource := names.map PmResource.name

theorem heldNames_append (names names' : List String) :
    heldNames (names ++ names') = heldNames names + heldNames names' := by
  rw [heldNames, heldNames, heldNames, List.map_append, Multiset.coe_add]

theorem heldNames_singleton (name : String) : heldNames [name] = {.name name} := rfl

/-- The plugins among the files tried so far are registered. Held are what the entries of the map
hold, the names of the files that were passed over, and others. -/
structure PluginManager.Holds (pm : PluginManager) (files : List PluginFile)
    (others held : Multiset PmResource) : Prop where
  registers : pm.Registers (pluginsOf files)
  held : held = pm.held + heldNames (passedOver [] files) + others

section Loading

variable {pm pm' : PluginManager} {files : List PluginFile} {others held : Multiset PmResource}

/-- An error changes nothing about it. -/
theorem PluginManager.Holds.onError (h : pm.Holds files others held) (path errorString : String)
    (errorType : PmError) : (pmOnError pm path errorString errorType).Holds files others held :=
  ⟨h.registers.onError path errorString errorType, h.held⟩

/-- A name is found if and only if one of the plugins has it. -/
theorem PluginManager.Registers.get_ne_none_iff {found : List PmDeviceData}
    (h : pm.Registers found) {key : Key PluginManagerEntry} :
    hashmapGet pluginsConfig pm.hashmap key ≠ none ↔
      ∃ data ∈ found, data.name = key.contents.name := by
  have hnone : hashmapGet pluginsConfig pm.hashmap key = none ↔
      ∀ data ∈ found, data.name ≠ key.contents.name := by
    rw [← Option.map_eq_none_iff (f := pmDeviceData), h.get, KeyedLookup.lookup_eq_none_iff]
  rw [ne_eq, hnone]
  simp only [not_forall, ne_eq, not_not, exists_prop]

/-- A name that is found is that of an entry. -/
theorem PluginManager.Registers.exists_entry {found : List PmDeviceData} (h : pm.Registers found)
    {key key' : Key PluginManagerEntry}
    (hget : hashmapGet pluginsConfig pm.hashmap key = some key') :
    ∃ entry ∈ pm.entries, key.contents.name = entry.name := by
  rw [hashmapGet_eq_find pluginsConfig_lawful h.shaped h.keyed, Option.map_eq_some_iff] at hget
  obtain ⟨node, hfind, -⟩ := hget
  obtain ⟨hmem, hequal⟩ := KeyedLookup.mem_of_lookup hfind
  refine ⟨node.contents, ?_, (pluginsConfig_equal_iff.mp hequal).symm⟩
  exact List.mem_map.mpr ⟨node.key, List.mem_map.mpr ⟨node, hmem, rfl⟩, rfl⟩

/-- A set of an absent key adds its entry, and no key is freed. -/
theorem PluginManager.Registers.set_entries {found : List PmDeviceData} (h : pm.Registers found)
    {key : Key PluginManagerEntry} (hget : hashmapGet pluginsConfig pm.hashmap key = none) :
    (PluginManager.entries
        { pm with
          hashmap := (hashmapSet pluginsConfig pm.hashmap key pm.callbacks).2.1
          callbacks := (hashmapSet pluginsConfig pm.hashmap key pm.callbacks).2.2 }).Perm
        (key.contents :: pm.entries) ∧
      ∀ held, Lawful needs (freeKeyUses pm.callbacks
        (hashmapSet pluginsConfig pm.hashmap key pm.callbacks).2.2) held held := by
  have hok := hashmapSet_working h.shaped h.working key
  obtain ⟨new, hledger⟩ := hashmapSet_ledger h.shaped hok
  have hlength := hledger.balanced.length_eq
  have hstored : (storedKeys pluginsConfig [key] new).length = 1 := by
    have hcopy : pluginsConfig.copyElements = true := rfl
    rw [storedKeys, if_pos hcopy, List.length_zipWith, hledger.copies rfl]
    rfl
  rw [List.length_append, List.length_append, List.length_map, List.length_map, hstored] at hlength
  cases hashmapSet_outcome h.shaped key pm.callbacks with
  | failed hstatus => exact absurd (hok.symm.trans hstatus) (by decide)
  | replaced stored node others _ _ _ hold hequal =>
    have hmem : node ∈ pm.hashmap.nodes pluginsConfig := hold.symm.subset List.mem_cons_self
    rw [hashmapGet_eq_find pluginsConfig_lawful h.shaped h.keyed, Option.map_eq_none_iff,
      HashMap.find, KeyedLookup.lookup_eq_none_iff] at hget
    exact absurd hequal (hget node hmem)
  | inserted stored ptr _ _ hstoredFor _ hnew =>
    have hnodes := hnew.length_eq
    rw [List.length_cons] at hnodes
    have hreleased : releasedKeys new = [] := List.length_eq_zero_iff.mp (by omega)
    refine ⟨?_, fun held => ?_⟩
    · rw [← hstoredFor.1]
      exact (hnew.map BucketNode.key).map Key.contents
    · rw [freeKeyUses, hledger.continues.since_eq, hreleased]
      exact lawful_nil held

/-- **One file.** -/
theorem pmLoadPluginUses_lawful {entryPtr : Ptr} {load : LoadResult} {path : List Char}
    {name : String} (hname : getBasename path path.length = some name.toList)
    (h : pm.Holds files others held) (hload : pmLoadPlugin entryPtr load pm path = some pm') :
    ∃ uses held', pmLoadPluginUses entryPtr load pm path = some uses ∧
      Lawful needs uses held held' ∧ pm'.Holds (files ++ [⟨name, load.device.map fun device =>
        ⟨name, String.ofList path, device⟩⟩]) others held' := by
  have hregisters : pm'.Registers (pluginsOf (files ++ [⟨name, load.device.map fun device =>
      ⟨name, String.ofList path, device⟩⟩])) := by
    obtain ⟨pm₁, hload₁, hregisters⟩ := pmLoadPlugin_registers h.registers hname entryPtr load
    obtain rfl := Option.some.inj (hload₁.symm.trans hload)
    rw [pluginsOf_concat]
    exact hregisters
  have hheld := h.held
  rw [pmLoadPlugin, hname, Option.bind_eq_bind, Option.bind_some, String.ofList_toList] at hload
  rw [pmLoadPluginUses, hname, Option.bind_eq_bind, Option.bind_some, String.ofList_toList]
  dsimp only at hload ⊢
  cases hget : hashmapGet pluginsConfig pm.hashmap ⟨entryPtr, ⟨0, name, "", 0⟩⟩ with
  | some key =>
    have hhidden : ∃ data ∈ pluginsOf files, data.name = name :=
      h.registers.get_ne_none_iff.mp (ne_of_eq_of_ne hget (Option.some_ne_none key))
    rw [hget] at hload
    obtain rfl := Option.some.inj hload
    refine ⟨_, _, rfl, lawful_acquire (needs_le_of_zero rfl held), hregisters, ?_⟩
    rw [passedOver_concat, List.nil_append, if_pos hhidden, heldNames_append, hheld,
      heldNames_singleton, ← Multiset.singleton_add]
    abel
  | none =>
    have hhidden : ¬ ∃ data ∈ pluginsOf files, data.name = name :=
      fun hdata => h.registers.get_ne_none_iff.mpr hdata hget
    have hpassed (plugin : Option PmDeviceData) :
        passedOver [] (files ++ [⟨name, plugin⟩]) = passedOver [] files := by
      rw [passedOver_concat, List.nil_append, if_neg hhidden, List.append_nil]
    rw [hget] at hload
    have hstrings : Lawful needs
        [.acquire (.name name), .acquire (.path (String.ofList path))] held
        (.path (String.ofList path) ::ₘ .name name ::ₘ held) :=
      (lawful_acquire (needs_le_of_zero rfl _)).append (lawful_acquire (needs_le_of_zero rfl _))
    rcases pmLoadPluginLibUses_lawful load with
      ⟨dlhandle, device, -, hlib, hlawful⟩ | ⟨hnone, hlawful⟩
    · rw [hlib] at hload ⊢
      dsimp only at hload ⊢
      rw [if_neg (lt_irrefl 0)] at hload ⊢
      obtain rfl := Option.some.inj hload
      have habsent : hashmapGet pluginsConfig pm.hashmap
          ⟨entryPtr, ⟨dlhandle, name, String.ofList path, device⟩⟩ = none := by
        rw [← hget]
        exact hashmapGet_congr pluginsConfig_lawful h.registers.shaped h.registers.keyed
          (pluginsConfig_equal_iff.mpr rfl)
      obtain ⟨hentries, hfreed⟩ := h.registers.set_entries habsent
      refine ⟨_, _, rfl, (hstrings.append (hlawful.acquiring _)).append (hfreed _), hregisters, ?_⟩
      rw [hpassed, PluginManager.held, (hentries.map PluginManagerEntry.held).sum_eq,
        List.map_cons, List.sum_cons, PluginManagerEntry.held, ← PluginManager.held, hheld]
      simp only [Multiset.insert_eq_cons, ← Multiset.singleton_add]
      abel
    · obtain ⟨entry, errorString, hlib⟩ :=
        pmLoadPluginLib_of_none hnone pm ⟨0, name, String.ofList path, 0⟩
      rw [hlib] at hload ⊢
      dsimp only at hload ⊢
      rw [if_pos (by decide)] at hload ⊢
      obtain rfl := Option.some.inj hload
      have hopened := hlawful.acquiring
        (.path (String.ofList path) ::ₘ .name name ::ₘ held)
      rw [zero_add] at hopened
      have hfreed : Lawful needs
          [.release (.name entry.name), .release (.path entry.path)]
          (.path (String.ofList path) ::ₘ .name name ::ₘ held) held := by
        obtain ⟨hsameName, hsamePath⟩ := pmLoadPluginLib_strings pm load
          ⟨0, name, String.ofList path, 0⟩
        rw [hlib] at hsameName hsamePath
        rw [hsameName, hsamePath, Multiset.cons_swap]
        exact (lawful_release (needs_le_of_zero rfl _)).append
          (lawful_release (needs_le_of_zero rfl _))
      exact ⟨_, _, rfl, (hstrings.append hopened).append hfreed,
        hregisters, by rw [hpassed]; exact hheld⟩

/-! ### Directories -/

variable {pathMax : ℕ} {entryPtr : Ptr} {extension : String} {dir : PluginDirectory}

/-- **One entry of a directory.** -/
theorem pmLoadDirEntryUses_lawful {dp : DirEntry} (h : pm.Holds files others held)
    (hload : pmLoadDirEntry pathMax entryPtr extension dir.path pm dp = some pm') :
    ∃ uses held', pmLoadDirEntryUses pathMax entryPtr extension dir.path pm dp = some uses ∧
      Lawful needs uses held held' ∧
      pm'.Holds (files ++ (dir.file pathMax extension dp).toList) others held' := by
  have huntried (hnone : dir.file pathMax extension dp = none) {pm' : PluginManager}
      (h : pm'.Holds files others held) :
      pm'.Holds (files ++ (dir.file pathMax extension dp).toList) others held := by
    rw [hnone, Option.toList_none, List.append_nil]
    exact h
  rw [pmLoadDirEntry] at hload
  rw [pmLoadDirEntryUses]
  split_ifs at hload ⊢ with hdots
  · obtain rfl := Option.some.inj hload
    rw [strcmp_eq_zero_iff, strcmp_eq_zero_iff] at hdots
    exact ⟨[], held, rfl, lawful_nil held,
      huntried (if_neg fun htried => hdots.elim htried.1 htried.2.1) h⟩
  · rw [strcmp_eq_zero_iff, strcmp_eq_zero_iff, not_or] at hdots
    obtain ⟨path, hpath, hload⟩ := Option.bind_eq_some_iff.mp hload
    have hne : dir.path.toList ≠ [] := by
      intro hnil
      rw [hnil] at hpath
      cases hpath
    have hresult := Option.some.inj (hpath.symm.trans (PluginDirectory.buildPath_eq_ite hne _))
    rw [hpath, Option.bind_eq_bind, Option.bind_some]
    cases path with
    | none =>
      obtain rfl := Option.some.inj hload
      refine ⟨[], held, rfl, lawful_nil held, huntried (if_neg fun htried => ?_) h⟩
      rw [if_pos htried.2.2.1] at hresult
      cases hresult
    | some path =>
      split_ifs at hresult with hlt
      obtain rfl := Option.some.inj hresult
      dsimp only at hload ⊢
      split_ifs at hload ⊢ with hcheck
      · obtain rfl := Option.some.inj hload
        refine ⟨[], held, rfl, lawful_nil held, huntried (if_neg fun htried => ?_) h⟩
        rw [htried.2.2.2.1] at hcheck
        cases hcheck
      · cases hstat : dp.stat with
        | failed errorText =>
          rw [hstat] at hload
          obtain rfl := Option.some.inj hload
          refine ⟨[], held, rfl, lawful_nil held, huntried (if_neg fun htried => ?_)
            (h.onError _ _ _)⟩
          cases hstat.symm.trans htried.2.2.2.2
        | directory =>
          rw [hstat] at hload
          obtain rfl := Option.some.inj hload
          refine ⟨[], held, rfl, lawful_nil held, huntried (if_neg fun htried => ?_) h⟩
          cases hstat.symm.trans htried.2.2.2.2
        | file =>
          rw [hstat] at hload
          have hfile : dir.file pathMax extension dp = some ⟨dp.dName, dp.load.device.map
              fun device => ⟨dp.dName, dir.filePath dp.dName, device⟩⟩ :=
            if_pos ⟨hdots.1, hdots.2, hlt, by simpa using hcheck, hstat⟩
          have huses := pmLoadPluginUses_lawful (getBasename_filePath dir dp) h hload
          rw [String.ofList_toList] at huses
          rw [hfile]
          exact huses

/-- Something else is acquired. -/
theorem PluginManager.Holds.acquire (h : pm.Holds files others held) (r : PmResource) :
    pm.Holds files (r ::ₘ others) (r ::ₘ held) :=
  ⟨h.registers, by rw [h.held, Multiset.add_cons]⟩

/-- Something else is released. -/
theorem PluginManager.Holds.release {r : PmResource} (h : pm.Holds files (r ::ₘ others) held) :
    ∃ held', held = r ::ₘ held' ∧ pm.Holds files others held' :=
  ⟨_, by rw [h.held, Multiset.add_cons], h.registers, rfl⟩

/-- **One directory.** It is closed in the end, if it could be opened. -/
theorem pmLoadDevicePluginsFromDirUses_lawful (h : pm.Holds files others held)
    (hload : pmLoadDevicePluginsFromDir pathMax entryPtr extension pm dir = some pm') :
    ∃ uses held', pmLoadDevicePluginsFromDirUses pathMax entryPtr extension pm dir = some uses ∧
      Lawful needs uses held held' ∧
      pm'.Holds (files ++ dir.files pathMax extension) others held' := by
  rw [pmLoadDevicePluginsFromDir] at hload
  rw [pmLoadDevicePluginsFromDirUses, PluginDirectory.files, PluginDirectory.entries,
    List.filterMap_eq_flatMap_toList]
  cases hopen : dir.opendir with
  | failed errorText =>
    rw [hopen] at hload
    obtain rfl := Option.some.inj hload
    refine ⟨[], held, rfl, lawful_nil held, ?_⟩
    rw [List.flatMap_nil, List.append_nil]
    exact h.onError _ _ _
  | opened entries errorText =>
    rw [hopen] at hload
    obtain ⟨pm₁, hfold, hload⟩ := Option.bind_eq_some_iff.mp hload
    have hstep : ∀ (done : List DirEntry) (pm : PluginManager) held dp pm',
        pm.Holds (files ++ done.flatMap fun dp => (dir.file pathMax extension dp).toList)
          (.directory dir.path ::ₘ others) held →
        pmLoadDirEntry pathMax entryPtr extension dir.path pm dp = some pm' →
        ∃ made held', pmLoadDirEntryUses pathMax entryPtr extension dir.path pm dp = some made ∧
          Lawful needs made held held' ∧
          pm'.Holds (files ++
              (done ++ [dp]).flatMap fun dp => (dir.file pathMax extension dp).toList)
            (.directory dir.path ::ₘ others) held' := by
      intro done pm held dp pm' hI hload
      rw [List.flatMap_append, List.flatMap_singleton, ← List.append_assoc]
      exact pmLoadDirEntryUses_lawful hI hload
    have hstart : pm.Holds (files ++ [].flatMap fun dp => (dir.file pathMax extension dp).toList)
        (.directory dir.path ::ₘ others) (.directory dir.path ::ₘ held) := by
      rw [List.flatMap_nil, List.append_nil]
      exact h.acquire (.directory dir.path)
    obtain ⟨made, held₁, hlogged, hlawful, h₁⟩ := lawful_foldlM hstep [] hfold hstart []
    obtain ⟨held', rfl, h'⟩ := h₁.release
    have huses := ((lawful_acquire (needs_le_of_zero rfl held)).append hlawful).append
      (lawful_release (needs_le_of_zero rfl held'))
    have hfolded : entries.foldlM (logged (pmLoadDirEntry pathMax entryPtr extension dir.path)
        (pmLoadDirEntryUses pathMax entryPtr extension dir.path)) (pm, []) = _ := hlogged
    refine ⟨_, held', by dsimp only; rw [hfolded]; rfl, huses, ?_⟩
    cases errorText with
    | none =>
      obtain rfl := Option.some.inj hload
      exact h'
    | some errorText =>
      obtain rfl := Option.some.inj hload
      exact h'.onError _ _ _

/-- The files that `pm_load_device_plugins` tries, in order. -/
def triedFiles (pathMax : ℕ) (extension : String) (dirs : List PluginDirectory) :
    List PluginFile :=
  dirs.reverse.flatMap fun dir => dir.files pathMax extension

/-- **All directories.** -/
theorem pmLoadDevicePluginsUses_lawful {dirs : List PluginDirectory} (h : pm.Holds [] others held)
    (hload : pmLoadDevicePlugins pathMax entryPtr extension dirs pm = some pm') :
    ∃ uses held', pmLoadDevicePluginsUses pathMax entryPtr extension dirs pm = some uses ∧
      Lawful needs uses held held' ∧
      pm'.Holds (triedFiles pathMax extension dirs) others held' := by
  rw [pmLoadDevicePlugins_eq] at hload
  have hstep : ∀ (done : List PluginDirectory) (pm : PluginManager) held dir pm',
      pm.Holds (done.flatMap fun dir => dir.files pathMax extension) others held →
      pmLoadDevicePluginsFromDir pathMax entryPtr extension pm dir = some pm' →
      ∃ made held', pmLoadDevicePluginsFromDirUses pathMax entryPtr extension pm dir = some made ∧
        Lawful needs made held held' ∧
        pm'.Holds ((done ++ [dir]).flatMap fun dir => dir.files pathMax extension) others
          held' := by
    intro done pm held dir pm' hI hload
    rw [List.flatMap_append, List.flatMap_singleton]
    exact pmLoadDevicePluginsFromDirUses_lawful hI hload
  obtain ⟨made, held', hlogged, hlawful, h'⟩ := lawful_foldlM hstep [] hload h []
  have hfolded : dirs.reverse.foldlM (logged (pmLoadDevicePluginsFromDir pathMax entryPtr extension)
      (pmLoadDevicePluginsFromDirUses pathMax entryPtr extension)) (pm, []) = _ := hlogged
  exact ⟨_, held', by rw [pmLoadDevicePluginsUses, hfolded]; rfl, hlawful, h'⟩

end Loading

/-! ### Freeing -/

/-- **Freeing the manager** gives back what its entries hold. -/
theorem pmFreeUses_lawful (pm : PluginManager) : Lawful needs (pmFreeUses pm) pm.held 0 := by
  obtain ⟨new, hledger⟩ := hashmapFree_ledger pluginsConfig pm.hashmap pm.callbacks
  have hreleased :
      (releasedKeys new).Perm ((pm.hashmap.nodes pluginsConfig).map BucketNode.key) := by
    have hbalanced := hledger.balanced
    rwa [List.map_nil, List.append_nil, storedKeys_nil, List.nil_append] at hbalanced
  have hheld : ((releasedKeys new).map fun key => key.contents.held).sum = pm.held := by
    rw [(hreleased.map _).sum_eq, PluginManager.held, PluginManager.entries]
    simp only [List.map_map, Function.comp_def]
  rw [pmFreeUses, freeKeyUses, hledger.continues.since_eq, ← hheld]
  exact Lawful.flatMap (fun key : Key PluginManagerEntry => pmFreeKeyUses_lawful key.contents) _

/-- **Everything is given back, but for names.** Load plugins from any directories with a new
manager and free it. Nothing is released that is not held, and no device is made or freed while its
library is closed. What is held in the end are the names of the files that were passed over, once
for each of them; these are names of plugins that were registered. -/
theorem plugins_released {blocks : ℕ → Ptr} {hasOnError : Bool} {pathMax : ℕ} {entryPtr : Ptr}
    {extension : String} {dirs : List PluginDirectory} {new pm : PluginManager}
    (hnew : pmNew blocks hasOnError = some new)
    (hload : pmLoadDevicePlugins pathMax entryPtr extension dirs new = some pm) :
    ∃ uses, pmLoadDevicePluginsUses pathMax entryPtr extension dirs new = some uses ∧
      Lawful needs uses 0
        (pm.held + heldNames (passedOver [] (triedFiles pathMax extension dirs))) ∧
      Lawful needs (uses ++ pmFreeUses pm) 0
        (heldNames (passedOver [] (triedFiles pathMax extension dirs))) ∧
      ∀ name ∈ passedOver [] (triedFiles pathMax extension dirs),
        ∃ entry ∈ pm.entries, name = entry.name := by
  obtain ⟨new', hnew', hregisters⟩ := pmNew_registers blocks hasOnError
  obtain rfl := Option.some.inj (hnew.symm.trans hnew')
  have hempty : new.entries = [] := by
    have hcb : Callbacks.Working (α := PluginManagerEntry) ⟨fun n => some (blocks n), 0, []⟩ :=
      fun _ => rfl
    obtain ⟨hashmap, cb, hmap, -⟩ := hashmapNew_working (c := pluginsConfig) hcb
    rw [pmNew, hmap] at hnew
    obtain rfl := Option.some.inj hnew
    rw [PluginManager.entries, hashmapNew_nodes (hashmapNew_fst hmap)]
    rfl
  have hstart : new.Holds [] 0 0 := by
    refine ⟨hregisters, ?_⟩
    rw [PluginManager.held, hempty]
    rfl
  obtain ⟨uses, held, huses, hlawful, hholds⟩ := pmLoadDevicePluginsUses_lawful hstart hload
  have hheld := hholds.held
  rw [add_zero] at hheld
  subst hheld
  have hfree := (pmFreeUses_lawful pm).releasing
    (heldNames (passedOver [] (triedFiles pathMax extension dirs)))
  refine ⟨uses, huses, hlawful, hlawful.append hfree, fun name hname => ?_⟩
  have hplugin : ∃ data ∈ pluginsOf (triedFiles pathMax extension dirs), data.name = name :=
    exists_plugin_of_passedOver hname
  have hstored : hashmapGet pluginsConfig pm.hashmap ⟨0, ⟨0, name, "", 0⟩⟩ ≠ none :=
    hholds.registers.get_ne_none_iff.mpr hplugin
  obtain ⟨key, hget⟩ := Option.ne_none_iff_exists'.mp hstored
  exact hholds.registers.exists_entry hget

/-- A directory that has the keyboard plugin, too. -/
def otherDirectory : PluginDirectory :=
  ⟨"/home/user/lc3-simulator/plugins", .opened [keyboardEntry (.opened 3 (.device 4))] none⟩

/-- The plugin of the installation is passed over, and its name is not given back. -/
theorem plugins_released_other : ∃ new pm uses, pmNew id true = some new ∧
    pmLoadDevicePlugins 4096 0 "so" [mainDirectory, otherDirectory] new = some pm ∧
    pmLoadDevicePluginsUses 4096 0 "so" [mainDirectory, otherDirectory] new = some uses ∧
    Lawful needs (uses ++ pmFreeUses pm) 0 {.name "keyboard.so"} := by
  obtain ⟨new, hnew⟩ : ∃ new, pmNew id true = some new := ⟨_, rfl⟩
  obtain ⟨pm, hload⟩ : ∃ pm,
      pmLoadDevicePlugins 4096 0 "so" [mainDirectory, otherDirectory] new = some pm := by
    obtain rfl := Option.some.inj hnew
    exact ⟨_, rfl⟩
  obtain ⟨uses, huses, -, hfreed, -⟩ := plugins_released hnew hload
  have hpassed : passedOver [] (triedFiles 4096 "so" [mainDirectory, otherDirectory]) =
      ["keyboard.so"] := by decide +kernel
  rw [hpassed] at hfreed
  exact ⟨new, pm, uses, hnew, hload, huses, hfreed⟩

end Lc3Simulator
