import Lc3Simulator.Library.Layers
import Lc3Simulator.PluginManager

/-!
# Which plugins are listed

The directories are visited from the last to the first, and a file is passed over if a plugin of
its name is registered already. A name is registered when the file was loaded, and not before. So a
plugin of a later directory hides the plugins of its name in earlier directories, and a file that is
no plugin hides nothing. The directories are layers, and the plugins that are listed are the visible
entries.

The name that is registered is the base name of the path that was put together. The names that
`readdir` returns are not empty and have no slashes, so that this is the name of the file again.

## Main definitions

* `HasExtension`, `PluginDirectory.plugins` — the plugins that a directory has
* `IsExtension`, `PluginDirectory.Regular` — what is taken for granted of an extension, and of a
  directory
* `PluginManager.Registers` — the plugins found so far, of which the first of a name counts

## Main results

* `pmLoadDirEntry_registers` — one entry of a directory
* `pmLoadDevicePlugins_registers` — all directories
* `plugins_shadow` — which plugins the iterator returns
-/

namespace Lc3Simulator

open CString KeyedLookup Transition

/-! ### The plugins of a directory -/

/-- The extension of a name is what follows its last dot. -/
def HasExtension (name extension : List Char) : Prop :=
  '.' :: extension <:+ name ∧ '.' ∉ extension

instance (name extension : List Char) : Decidable (HasExtension name extension) :=
  inferInstanceAs (Decidable (_ ∧ _))

/-- What is taken for granted of an extension: it is not empty and has no slash. -/
structure IsExtension (extension : String) : Prop where
  ne_nil : extension.toList ≠ []
  slash_not_mem : '/' ∉ extension.toList

/-- `EXTENSION` of `user_interface.c`, which is all that `pm_load_device_plugins` is called with. It
depends on the operating system. -/
def extensions : List String := ["so", "dylib"]

theorem isExtension_of_mem {extension : String} (h : extension ∈ extensions) :
    IsExtension extension := by
  rcases List.mem_pair.mp h with rfl | rfl
  · exact ⟨by decide, by decide⟩
  · exact ⟨by decide, by decide⟩

theorem not_hasExtension_of_dots {name extension : List Char} (hname : ∀ c ∈ name, c = '.')
    (hext : extension ≠ []) : ¬ HasExtension name extension := by
  rintro ⟨hsuffix, hdot⟩
  obtain ⟨c, hc⟩ := List.exists_mem_of_ne_nil extension hext
  obtain rfl := hname c (hsuffix.subset (List.mem_cons_of_mem _ hc))
  exact hdot hc

/-- The device, if a file can be loaded. -/
def LoadResult.device : LoadResult → Option Ptr
  | .opened _ (.device device) => some device
  | .opened _ (.notFound _) | .opened _ (.failed _) | .failed _ => none

namespace PluginDirectory

variable (dir : PluginDirectory)

def entries : List DirEntry :=
  match dir.opendir with
  | .failed _ => []
  | .opened entries _ => entries

/-- The path of a file of the directory. -/
def filePath (dName : String) : String :=
  if dir.path.toList.getLast? = some '/' then dir.path ++ dName else dir.path ++ "/" ++ dName

/-- What an entry is listed as, if it has the extension, is a file and can be loaded. -/
def plugin (extension : String) (dp : DirEntry) : Option PmDeviceData :=
  if HasExtension dp.dName.toList extension.toList ∧ dp.stat = .file then
    dp.load.device.map fun device => ⟨dp.dName, dir.filePath dp.dName, device⟩
  else none

/-- The plugins of the directory. -/
def plugins (extension : String) : List PmDeviceData := dir.entries.filterMap (dir.plugin extension)

/-- The path is not empty, no name occurs twice, and every file has a path of less than `PATH_MAX`
characters. -/
structure Regular (pathMax : ℕ) : Prop where
  path_ne_nil : dir.path.toList ≠ []
  nodup : (dir.entries.map DirEntry.dName).Nodup
  filePath_lt : ∀ dp ∈ dir.entries, (dir.filePath dp.dName).toList.length < pathMax

variable {dir}

/-- The name is what follows the last slash of the path. -/
theorem filePath_eq (dName : String) :
    ∃ front, (dir.filePath dName).toList = front ++ '/' :: dName.toList := by
  rw [filePath]
  split
  · rename_i hlast
    obtain ⟨front, hfront⟩ := List.getLast?_eq_some_iff.mp hlast
    exact ⟨front, by rw [String.toList_append, hfront, List.append_assoc]; rfl⟩
  · exact ⟨dir.path.toList, by simp⟩

/-- The path that is put together is that of the file, unless this is too long. -/
theorem buildPath_eq_ite {pathMax : ℕ} (hpath : dir.path.toList ≠ []) (dName : String) :
    buildPath pathMax dir.path.toList dName.toList =
      some (if (dir.filePath dName).toList.length < pathMax then some (dir.filePath dName).toList
        else none) := by
  obtain ⟨front, last, hsplit⟩ := List.eq_nil_or_concat' _ |>.resolve_left hpath
  have htext : (if last ≠ '/' then dir.path.toList ++ ['/'] ++ dName.toList
      else dir.path.toList ++ dName.toList) = (dir.filePath dName).toList := by
    rw [PluginDirectory.filePath, hsplit, List.getLast?_concat]
    by_cases hlast : last = '/'
    · simp [hlast, hsplit]
    · simp [hlast, hsplit]
  have hwrite : snprintf pathMax pathMax (dir.filePath dName).toList =
      some ((dir.filePath dName).toList.take (pathMax - 1),
        (dir.filePath dName).toList.length) := by
    rw [snprintf, if_pos (Nat.min_le_left _ _)]
  have hlast : dir.path.toList.getLast? = some last := by rw [hsplit, List.getLast?_concat]
  simp only [buildPath, hlast, Option.bind_eq_bind, Option.bind_some, htext, hwrite,
    Option.pure_def]
  by_cases hlt : (dir.filePath dName).toList.length < pathMax
  · rw [if_neg (Nat.not_le_of_lt hlt), if_pos hlt, List.take_of_length_le (by omega)]
  · rw [if_pos (Nat.le_of_not_lt hlt), if_neg hlt]

theorem buildPath_eq {pathMax : ℕ} (hpath : dir.path.toList ≠ []) {dName : String}
    (hlt : (dir.filePath dName).toList.length < pathMax) :
    buildPath pathMax dir.path.toList dName.toList = some (some (dir.filePath dName).toList) := by
  rw [buildPath_eq_ite hpath, if_pos hlt]

end PluginDirectory

theorem drop_length_succ {α : Type} (front : List α) (x : α) (back : List α) :
    (front ++ x :: back).drop (front.length + 1) = back := by
  rw [List.append_cons]
  exact List.drop_left' (by simp)

/-- `check_extension` looks at the path, but a dot before the last slash is not one of an
extension without slashes. -/
theorem checkExtension_iff {front name extension : List Char} (hslash : '/' ∉ extension) :
    checkExtension (front ++ '/' :: name) extension ↔ HasExtension name extension := by
  by_cases hdot : '.' ∈ name
  · obtain ⟨stem, ext, rfl, hext⟩ := exists_last_of_mem hdot
    have hsplit : front ++ '/' :: (stem ++ '.' :: ext) = front ++ '/' :: stem ++ '.' :: ext := by
      simp
    rw [checkExtension, hsplit, strrchr_append hext]
    simp only [drop_length_succ, decide_eq_true_eq, strcmp_eq_zero_iff]
    constructor
    · rintro rfl
      exact ⟨List.suffix_append stem _, hext⟩
    · rintro ⟨⟨stem', hname⟩, hext'⟩
      have hlast := strrchr_append hext stem
      rw [← hname, strrchr_append hext'] at hlast
      obtain ⟨-, hback⟩ := List.append_inj hname (Option.some.inj hlast)
      exact (List.cons.inj hback).2.symm
  · have hnot : ¬ HasExtension name extension :=
      fun h => hdot (h.1.subset List.mem_cons_self)
    refine iff_of_false ?_ hnot
    by_cases hfront : '.' ∈ front
    · obtain ⟨start, rest, rfl, hrest⟩ := exists_last_of_mem hfront
      have hsplit : start ++ '.' :: rest ++ '/' :: name =
          start ++ '.' :: (rest ++ '/' :: name) := by simp
      have hback : '.' ∉ rest ++ '/' :: name := by simp [hrest, hdot]
      rw [checkExtension, hsplit, strrchr_append hback]
      simp only [drop_length_succ, decide_eq_true_eq, strcmp_eq_zero_iff]
      rintro rfl
      exact hslash (by simp)
    · have hpath : '.' ∉ front ++ '/' :: name := by simp [hfront, hdot]
      rw [checkExtension, strrchr_of_not_mem hpath]
      exact Bool.false_ne_true

/-- The base name of the path of a file is its name. -/
theorem getBasename_filePath (dir : PluginDirectory) (dp : DirEntry) :
    getBasename (dir.filePath dp.dName).toList (dir.filePath dp.dName).toList.length =
      some dp.dName.toList := by
  obtain ⟨front, hpath⟩ := dir.filePath_eq dp.dName
  rw [hpath]
  exact getBasename_of_last dp.dName_ne_nil dp.slash_not_mem front

/-! ### The map of plugins -/

/-- The map compares names. -/
theorem pluginsConfig_equal_iff {entry entry' : PluginManagerEntry} :
    pluginsConfig.Equal entry entry' ↔ entry.name = entry'.name :=
  strcmp_eq_zero_iff.trans String.toList_inj

theorem pluginsConfig_lawful : pluginsConfig.Lawful where
  equivalence :=
    { refl := fun _ => pluginsConfig_equal_iff.mpr rfl
      symm := fun h => pluginsConfig_equal_iff.mpr (pluginsConfig_equal_iff.mp h).symm
      trans := fun h h' => pluginsConfig_equal_iff.mpr
        ((pluginsConfig_equal_iff.mp h).trans (pluginsConfig_equal_iff.mp h')) }
  getHash_eq := fun {entry entry'} h => by
    show pmHash entry = pmHash entry'
    rw [pmHash, pmHash, pluginsConfig_equal_iff.mp h]

/-- The plugins found so far, of which the first of each name is in the map. -/
structure PluginManager.Registers (pm : PluginManager) (found : List PmDeviceData) : Prop where
  shaped : pm.hashmap.Shaped pluginsConfig
  keyed : pm.hashmap.Keyed pluginsConfig
  working : pm.callbacks.Working
  get : ∀ key, (hashmapGet pluginsConfig pm.hashmap key).map pmDeviceData =
    lookup Eq PmDeviceData.name found key.contents.name

section Registers

variable {pm : PluginManager} {found : List PmDeviceData}

/-- A new manager has no plugins. -/
theorem pmNew_registers (blocks : ℕ → Ptr) (hasOnError : Bool) :
    ∃ pm, pmNew blocks hasOnError = some pm ∧ pm.Registers [] := by
  have hcb : Callbacks.Working (α := PluginManagerEntry) ⟨fun n => some (blocks n), 0, []⟩ :=
    fun _ => rfl
  obtain ⟨hashmap, cb, hnew, hworking⟩ := hashmapNew_working (c := pluginsConfig) hcb
  have hfst := hashmapNew_fst hnew
  refine ⟨⟨hashmap, cb, if hasOnError then some [] else none⟩, by rw [pmNew, hnew]; rfl,
    hashmapNew_shaped hfst, hashmapNew_keyed hfst, hworking, fun key => ?_⟩
  rw [hashmapNew_get pluginsConfig_lawful hfst key]
  rfl

/-- An error leaves the map as it is. -/
theorem PluginManager.Registers.onError (h : pm.Registers found) (path errorString : String)
    (errorType : PmError) : (pmOnError pm path errorString errorType).Registers found :=
  ⟨h.shaped, h.keyed, h.working, h.get⟩

/-- A plugin whose name is registered is hidden. -/
theorem PluginManager.Registers.hidden (h : pm.Registers found) {key : Key PluginManagerEntry}
    (hget : hashmapGet pluginsConfig pm.hashmap key ≠ none) {more : List PmDeviceData}
    (hmore : ∀ data ∈ more, data.name = key.contents.name) : pm.Registers (found ++ more) := by
  refine ⟨h.shaped, h.keyed, h.working, fun k => ?_⟩
  rw [h.get, lookup_append]
  by_cases hk : key.contents.name = k.contents.name
  · have hfound : lookup Eq PmDeviceData.name found k.contents.name ≠ none := by
      rw [← hk, ← h.get]
      exact Option.map_eq_none_iff.not.mpr hget
    obtain ⟨data, hdata⟩ := Option.ne_none_iff_exists'.mp hfound
    rw [hdata, Option.some_or]
  · have hnone : lookup Eq PmDeviceData.name more k.contents.name = none :=
      lookup_eq_none_iff.mpr fun data hdata hname => hk ((hmore data hdata).symm.trans hname)
    rw [hnone, Option.or_none]

/-- A plugin that is set is registered, if its name was not. -/
theorem PluginManager.Registers.set (h : pm.Registers found) {key : Key PluginManagerEntry}
    (hget : hashmapGet pluginsConfig pm.hashmap key = none) :
    PluginManager.Registers
      { pm with
        hashmap := (hashmapSet pluginsConfig pm.hashmap key pm.callbacks).2.1
        callbacks := (hashmapSet pluginsConfig pm.hashmap key pm.callbacks).2.2 }
      (found ++ [pmDeviceData key]) := by
  have houtcome := hashmapSet_outcome h.shaped key pm.callbacks
  have hok := hashmapSet_working h.shaped h.working key
  obtain ⟨calls, hcont, -⟩ := hashmapSet_calls pluginsConfig pm.hashmap key pm.callbacks
  rcases houtcome.get pluginsConfig_lawful h.shaped h.keyed with
    ⟨hfailed, -⟩ | ⟨-, stored, hstored, hanswers⟩
  · exact absurd (hok.symm.trans hfailed) (by decide)
  · refine ⟨houtcome.shaped, houtcome.keyed pluginsConfig_lawful h.keyed, hcont.working h.working,
      fun k => ?_⟩
    rw [hanswers k, lookup_append]
    by_cases hk : pluginsConfig.Equal key.contents k.contents
    · have hname : (pmDeviceData key).name = k.contents.name := pluginsConfig_equal_iff.mp hk
      have hnone : lookup Eq PmDeviceData.name found k.contents.name = none := by
        rw [← pluginsConfig_equal_iff.mp hk, ← h.get, hget]
        rfl
      have hdata : pmDeviceData stored = pmDeviceData key := by
        rw [pmDeviceData, hstored.1, pmDeviceData]
      rw [if_pos hk, hnone, Option.none_or, lookup_cons hname, Option.map_some, hdata]
    · have hname : (pmDeviceData key).name ≠ k.contents.name :=
        mt pluginsConfig_equal_iff.mpr hk
      rw [if_neg hk, h.get, lookup_cons_of_not hname]
      exact Option.or_none.symm

/-! ### Loading -/

/-- A file that cannot be loaded is reported under its path, and leaves the map as it is. -/
theorem pmLoadPluginLib_of_none {load : LoadResult} (hload : load.device = none)
    (pm : PluginManager) (entry : PluginManagerEntry) :
    ∃ entry' errorString, pmLoadPluginLib pm load entry =
      (-1, entry', pmOnError pm entry.path errorString .pluginLoad) := by
  cases load with
  | failed dlerror => exact ⟨_, _, rfl⟩
  | opened dlhandle init =>
    cases init with
    | notFound dlerror => exact ⟨_, _, rfl⟩
    | failed errorText => exact ⟨_, _, rfl⟩
    | device device => cases hload

theorem pmLoadPluginLib_of_some {load : LoadResult} {device : Ptr}
    (hload : load.device = some device) (pm : PluginManager) (entry : PluginManagerEntry) :
    ∃ dlhandle, pmLoadPluginLib pm load entry = (0, { entry with dlhandle, device }, pm) := by
  cases load with
  | failed dlerror => cases hload
  | opened dlhandle init =>
    cases init with
    | notFound dlerror => cases hload
    | failed errorText => cases hload
    | device device' =>
      obtain rfl := Option.some.inj hload
      exact ⟨dlhandle, rfl⟩

/-- **One file.** It is found, if it can be loaded. Whether its name is registered already decides
only if it counts. -/
theorem pmLoadPlugin_registers (h : pm.Registers found) {path : List Char} {name : String}
    (hname : getBasename path path.length = some name.toList) (entryPtr : Ptr)
    (load : LoadResult) : ∃ pm', pmLoadPlugin entryPtr load pm path = some pm' ∧
      pm'.Registers (found ++ (load.device.map fun device =>
        (⟨name, String.ofList path, device⟩ : PmDeviceData)).toList) := by
  rw [pmLoadPlugin, hname, Option.bind_eq_bind, Option.bind_some, String.ofList_toList]
  cases hget : hashmapGet pluginsConfig pm.hashmap ⟨entryPtr, ⟨0, name, "", 0⟩⟩ with
  | some key =>
    have hregistered := ne_of_eq_of_ne hget (Option.some_ne_none key)
    refine ⟨pm, by simp only [hget]; rfl, h.hidden hregistered fun data hdata => ?_⟩
    obtain ⟨device, -, rfl⟩ := Option.map_eq_some_iff.mp (Option.mem_toList.mp hdata)
    rfl
  | none =>
    cases hload : load.device with
    | none =>
      obtain ⟨entry, errorString, hlib⟩ :=
        pmLoadPluginLib_of_none hload pm ⟨0, name, String.ofList path, 0⟩
      refine ⟨pmOnError pm (String.ofList path) errorString .pluginLoad, ?_, ?_⟩
      · simp only [hget, hlib]
        rfl
      · rw [Option.map_none, Option.toList_none, List.append_nil]
        exact h.onError _ _ _
    | some device =>
      obtain ⟨dlhandle, hlib⟩ :=
        pmLoadPluginLib_of_some hload pm ⟨0, name, String.ofList path, 0⟩
      have habsent : hashmapGet pluginsConfig pm.hashmap
          ⟨entryPtr, ⟨dlhandle, name, String.ofList path, device⟩⟩ = none := by
        rw [← hget]
        exact hashmapGet_congr pluginsConfig_lawful h.shaped h.keyed
          (pluginsConfig_equal_iff.mpr rfl)
      refine ⟨_, ?_, h.set habsent⟩
      simp only [hget, hlib]
      rfl

/-! ### Directories -/

variable {pathMax : ℕ} {extension : String} {dir : PluginDirectory}

/-- **One entry of a directory.** -/
theorem pmLoadDirEntry_registers (hext : IsExtension extension) (hpath : dir.path.toList ≠ [])
    (entryPtr : Ptr) (h : pm.Registers found) {dp : DirEntry}
    (hlt : (dir.filePath dp.dName).toList.length < pathMax) :
    ∃ pm', pmLoadDirEntry pathMax entryPtr extension dir.path pm dp = some pm' ∧
      pm'.Registers (found ++ (dir.plugin extension dp).toList) := by
  have hunlisted (hnone : dir.plugin extension dp = none) {pm' : PluginManager}
      (h : pm'.Registers found) : pm'.Registers (found ++ (dir.plugin extension dp).toList) := by
    rw [hnone, Option.toList_none, List.append_nil]
    exact h
  rw [pmLoadDirEntry]
  by_cases hdots : strcmp dp.dName.toList ['.'] = 0 ∨ strcmp dp.dName.toList ['.', '.'] = 0
  · have hname : ∀ c ∈ dp.dName.toList, c = '.' := by
      rcases hdots with hdot | hdot <;> rw [strcmp_eq_zero_iff.mp hdot] <;> simp
    have hnot := not_hasExtension_of_dots hname hext.ne_nil
    rw [if_pos hdots]
    exact ⟨pm, rfl, hunlisted (if_neg fun hfile => hnot hfile.1) h⟩
  · rw [if_neg hdots, PluginDirectory.buildPath_eq hpath hlt]
    simp only [Option.bind_eq_bind, Option.bind_some]
    obtain ⟨front, hfront⟩ := dir.filePath_eq dp.dName
    have hcheck : checkExtension (dir.filePath dp.dName).toList extension.toList ↔
        HasExtension dp.dName.toList extension.toList := by
      rw [hfront]
      exact checkExtension_iff hext.slash_not_mem
    by_cases hhas : HasExtension dp.dName.toList extension.toList
    · rw [hcheck.mpr hhas]
      cases hstat : dp.stat with
      | failed errorText =>
        exact ⟨_, rfl, hunlisted (if_neg fun hfile => by simp [hstat] at hfile) (h.onError _ _ _)⟩
      | directory =>
        exact ⟨pm, rfl, hunlisted (if_neg fun hfile => by simp [hstat] at hfile) h⟩
      | file =>
        have hplugin : dir.plugin extension dp =
            dp.load.device.map fun device => ⟨dp.dName, dir.filePath dp.dName, device⟩ :=
          if_pos ⟨hhas, hstat⟩
        have hload := pmLoadPlugin_registers h (getBasename_filePath dir dp) entryPtr dp.load
        rw [String.ofList_toList, ← hplugin] at hload
        exact hload
    · rw [Bool.eq_false_iff.mpr (mt hcheck.mp hhas)]
      exact ⟨pm, rfl, hunlisted (if_neg fun hfile => hhas hfile.1) h⟩

/-- **One directory.** What is found is what it has. -/
theorem pmLoadDevicePluginsFromDir_registers (hext : IsExtension extension)
    (hdir : dir.Regular pathMax) (entryPtr : Ptr) (h : pm.Registers found) :
    ∃ pm', pmLoadDevicePluginsFromDir pathMax entryPtr extension pm dir = some pm' ∧
      pm'.Registers (found ++ dir.plugins extension) := by
  rw [pmLoadDevicePluginsFromDir, PluginDirectory.plugins]
  cases hopen : dir.opendir with
  | failed errorText =>
    have hentries : dir.entries = [] := by rw [PluginDirectory.entries, hopen]
    rw [hentries, List.filterMap_nil, List.append_nil]
    exact ⟨_, rfl, h.onError dir.path errorText .opendir⟩
  | opened entries errorText =>
    have hentries : dir.entries = entries := by rw [PluginDirectory.entries, hopen]
    have hstep : ∀ dp ∈ entries, ∀ (pm : PluginManager) found, pm.Registers found →
        ∃ pm', pmLoadDirEntry pathMax entryPtr extension dir.path pm dp = some pm' ∧
          pm'.Registers (found ++ (dir.plugin extension dp).toList) :=
      fun dp hdp _ _ h => pmLoadDirEntry_registers hext hdir.path_ne_nil entryPtr h
        (hdir.filePath_lt dp (hentries ▸ hdp))
    obtain ⟨pm', hfold, h'⟩ := foldlM_collects hstep h
    rw [← List.filterMap_eq_flatMap_toList] at h'
    simp only [hentries, hfold, Option.bind_eq_bind, Option.bind_some]
    cases errorText with
    | none => exact ⟨pm', rfl, h'⟩
    | some errorText => exact ⟨_, rfl, h'.onError dir.path errorText .opendir⟩

/-- **All directories**, the last one first. -/
theorem pmLoadDevicePlugins_registers (hext : IsExtension extension)
    {dirs : List PluginDirectory} (hdirs : ∀ dir ∈ dirs, dir.Regular pathMax) (entryPtr : Ptr)
    (h : pm.Registers []) :
    ∃ pm', pmLoadDevicePlugins pathMax entryPtr extension dirs pm = some pm' ∧
      pm'.Registers (dirs.map fun dir => dir.plugins extension).reverse.flatten := by
  rw [pmLoadDevicePlugins_eq, ← List.map_reverse, ← List.flatMap_def]
  have hstep : ∀ dir ∈ dirs.reverse, ∀ (pm : PluginManager) found, pm.Registers found →
      ∃ pm', pmLoadDevicePluginsFromDir pathMax entryPtr extension pm dir = some pm' ∧
        pm'.Registers (found ++ dir.plugins extension) :=
    fun dir hdir _ _ h =>
      pmLoadDevicePluginsFromDir_registers hext (hdirs dir (List.mem_reverse.mp hdir)) entryPtr h
  exact foldlM_collects hstep h

/-! ### The iterator -/

/-- The entries of the map are the first of each name. -/
theorem PluginManager.Registers.mem_iff (h : pm.Registers found) {data : PmDeviceData} :
    data ∈ ((pm.hashmap.nodes pluginsConfig).map BucketNode.key).map pmDeviceData ↔
      lookup Eq PmDeviceData.name found data.name = some data := by
  constructor
  · intro hdata
    obtain ⟨key, hkey, rfl⟩ := List.mem_map.mp hdata
    rw [mem_map_key_iff pluginsConfig_lawful h.shaped h.keyed] at hkey
    have hget := h.get key
    rw [hkey] at hget
    exact hget.symm
  · intro hlookup
    have hget := h.get ⟨0, ⟨0, data.name, "", 0⟩⟩
    rw [hlookup, hashmapGet_eq_find pluginsConfig_lawful h.shaped h.keyed, Option.map_map,
      Option.map_eq_some_iff] at hget
    obtain ⟨node, hfind, hdata⟩ := hget
    rw [List.map_map]
    exact List.mem_map.mpr ⟨node, (mem_of_lookup hfind).1, hdata⟩

/-- No two of them have the same name. -/
theorem PluginManager.Registers.nodup (h : pm.Registers found) :
    ((((pm.hashmap.nodes pluginsConfig).map BucketNode.key).map pmDeviceData).map
      PmDeviceData.name).Nodup := by
  simp only [List.map_map]
  refine List.pairwise_map.mpr (h.keyed.distinct.imp fun hne heq => hne ?_)
  exact pluginsConfig_equal_iff.mpr heq

theorem PluginManager.Registers.exists_iterator (h : pm.Registers found) :
    ∃ iterator, pmGetIterator pm = some iterator ∧
      iterator.Ahead pluginsConfig (pm.hashmap.nodes pluginsConfig) := by
  obtain ⟨ptr, cb, halloc, -⟩ := h.working.exists_alloc .iterator
  have hnew : pmGetIterator pm =
      some (hashmapIteratorInitiate pluginsConfig ptr pm.hashmap false) := by
    rw [pmGetIterator, hashmapGetIterator, halloc]
    rfl
  exact ⟨_, hnew, hashmapIterator_ahead h.shaped (Or.inl hnew)⟩

end Registers

/-! ### Layers -/

theorem PluginDirectory.name_of_plugin {dir : PluginDirectory} {extension : String} {dp : DirEntry}
    {data : PmDeviceData} (h : dir.plugin extension dp = some data) : data.name = dp.dName := by
  rw [PluginDirectory.plugin] at h
  split at h
  · obtain ⟨device, -, rfl⟩ := Option.map_eq_some_iff.mp h
    rfl
  · cases h

/-- A directory has at most one plugin of a name. -/
theorem PluginDirectory.Regular.distinct {dir : PluginDirectory} {pathMax : ℕ}
    (h : dir.Regular pathMax) (extension : String) :
    Distinct Eq PmDeviceData.name (dir.plugins extension) := by
  refine List.pairwise_filterMap.mpr ((List.pairwise_map.mp h.nodup).imp ?_)
  intro dp dp' hne data hdata data' hdata' hname
  rw [PluginDirectory.name_of_plugin hdata, PluginDirectory.name_of_plugin hdata'] at hname
  exact hne hname

/-- **Shadowing.** The iterator of a new manager that has loaded the plugins of some directories
returns each of its plugins once, and then `NULL`. Each name under which some directory has a plugin
is listed exactly once, with the plugin of the last directory that has one of this name. -/
theorem plugins_shadow {pathMax : ℕ} {extension : String} (hext : IsExtension extension)
    {dirs : List PluginDirectory} (hdirs : ∀ dir ∈ dirs, dir.Regular pathMax) (blocks : ℕ → Ptr)
    (hasOnError : Bool) (entryPtr : Ptr) :
    ∃ (new pm : PluginManager) (iterator : HashMapIterator PluginManagerEntry)
      (plugins : List PmDeviceData), pmNew blocks hasOnError = some new ∧
      pmLoadDevicePlugins pathMax entryPtr extension dirs new = some pm ∧
      pmGetIterator pm = some iterator ∧
      (∀ n, ∃ iterator', run (fun _ : Unit => pmIteratorNext pluginsConfig)
        (List.replicate n ()) iterator =
          some ((List.range n).map fun i => plugins[i]?, iterator')) ∧
      (plugins.map PmDeviceData.name).Nodup ∧
      (∀ name, name ∈ plugins.map PmDeviceData.name ↔
        ∃ dir ∈ dirs, name ∈ (dir.plugins extension).map PmDeviceData.name) ∧
      ∀ data ∈ plugins, ∃ earlier dir later, dirs = earlier ++ dir :: later ∧
        data ∈ dir.plugins extension ∧
        ∀ dir' ∈ later, data.name ∉ (dir'.plugins extension).map PmDeviceData.name := by
  obtain ⟨new, hnew, hempty⟩ := pmNew_registers blocks hasOnError
  obtain ⟨pm, hload, hpm⟩ := pmLoadDevicePlugins_registers hext hdirs entryPtr hempty
  obtain ⟨iterator, hiterator, hahead⟩ := hpm.exists_iterator
  have hdistinct : ∀ layer ∈ dirs.map fun dir => dir.plugins extension,
      Distinct Eq PmDeviceData.name layer := by
    intro layer hlayer
    obtain ⟨dir, hdir, rfl⟩ := List.mem_map.mp hlayer
    exact (hdirs dir hdir).distinct extension
  have hvisible (data : PmDeviceData) :
      data ∈ ((pm.hashmap.nodes pluginsConfig).map BucketNode.key).map pmDeviceData ↔
        Visible Eq PmDeviceData.name (dirs.map fun dir => dir.plugins extension) data :=
    hpm.mem_iff.trans (lookup_layers_iff eq_equivalence hdistinct)
  refine ⟨new, pm, iterator, _, hnew, hload, hiterator, pmIteratorAnswers_eq hahead, hpm.nodup,
    fun name => ?_, fun data hdata => ?_⟩
  · constructor
    · intro hname
      obtain ⟨data, hdata, rfl⟩ := List.mem_map.mp hname
      obtain ⟨earlier, dir, later, rfl, hplugin, -⟩ := visible_map_iff.mp ((hvisible data).mp hdata)
      exact ⟨dir, by simp, List.mem_map_of_mem hplugin⟩
    · rintro ⟨dir, hdir, hname⟩
      obtain ⟨data, hdata, rfl⟩ := List.mem_map.mp hname
      have hlayer : dir.plugins extension ∈ dirs.map fun dir => dir.plugins extension :=
        List.mem_map_of_mem hdir
      obtain ⟨shown, hshown, hsame⟩ : ∃ shown, Visible Eq PmDeviceData.name
          (dirs.map fun dir => dir.plugins extension) shown ∧ shown.name = data.name :=
        exists_visible eq_equivalence hlayer hdata
      exact List.mem_map.mpr ⟨shown, (hvisible shown).mpr hshown, hsame⟩
  · obtain ⟨earlier, dir, later, hsplit, hplugin, hlater⟩ :=
      visible_map_iff.mp ((hvisible data).mp hdata)
    refine ⟨earlier, dir, later, hsplit, hplugin, fun dir' hdir' hname => ?_⟩
    obtain ⟨other, hother, hsame⟩ := List.mem_map.mp hname
    exact hlater dir' hdir' other hother hsame

/-- A file with the name of the keyboard plugin. -/
def keyboardEntry (load : LoadResult) : DirEntry :=
  ⟨"keyboard.so", .file, load, by decide, by decide⟩

/-- The directory of the installation, where the plugin can be loaded, and one of a user, where a
file of the same name cannot. -/
def mainDirectory : PluginDirectory :=
  ⟨"/usr/local/lc3-simulator/plugins", .opened [keyboardEntry (.opened 1 (.device 2))] none⟩

def homeDirectory : PluginDirectory :=
  ⟨"/home/user/lc3-simulator/plugins", .opened [keyboardEntry (.failed "bad format")] none⟩

theorem regular_of_mem {dir : PluginDirectory} (h : dir ∈ [mainDirectory, homeDirectory]) :
    dir.Regular 4096 := by
  rcases List.mem_pair.mp h with rfl | rfl
  all_goals
    refine ⟨by decide, by decide, fun dp hdp => ?_⟩
    obtain rfl := List.mem_singleton.mp hdp
    decide

/-- The file that cannot be loaded does not hide the plugin. -/
theorem plugins_shadow_keyboard :
    ∃ (new pm : PluginManager) (iterator : HashMapIterator PluginManagerEntry)
      (plugins : List PmDeviceData), pmNew id true = some new ∧
      pmLoadDevicePlugins 4096 0 "so" [mainDirectory, homeDirectory] new = some pm ∧
      pmGetIterator pm = some iterator ∧
      (∀ n, ∃ iterator', run (fun _ : Unit => pmIteratorNext pluginsConfig)
        (List.replicate n ()) iterator =
          some ((List.range n).map fun i => plugins[i]?, iterator')) ∧
      ⟨"keyboard.so", "/usr/local/lc3-simulator/plugins/keyboard.so", 2⟩ ∈ plugins := by
  have hdirs : ∀ dir ∈ [mainDirectory, homeDirectory], dir.Regular 4096 :=
    fun _ => regular_of_mem
  have hext : IsExtension "so" := isExtension_of_mem List.mem_cons_self
  obtain ⟨new, pm, iterator, plugins, hnew, hload, hiterator, hanswers, -, hnames, hshadow⟩ :=
    plugins_shadow hext hdirs id true 0
  refine ⟨new, pm, iterator, plugins, hnew, hload, hiterator, hanswers, ?_⟩
  have hname : "keyboard.so" ∈ plugins.map PmDeviceData.name :=
    (hnames _).mpr ⟨mainDirectory, List.mem_cons_self, by decide⟩
  obtain ⟨data, hdata, -⟩ := List.mem_map.mp hname
  obtain ⟨earlier, dir, later, hsplit, hplugin, -⟩ := hshadow data hdata
  have hdir : dir ∈ [mainDirectory, homeDirectory] := by simp [hsplit]
  rcases List.mem_pair.mp hdir with rfl | rfl
  · obtain rfl := List.mem_singleton.mp hplugin
    exact hdata
  · cases hplugin

end Lc3Simulator
