import Lc3Simulator.Basename
import Lc3Simulator.HashmapIterator

/-!
# The plugin manager

The functions of `plugin_manager.c`, in the order of the source, with `string_hash` of `util.c`.
What the file system and the dynamic linker do is given with each directory: what comes of opening
it, the entries that are read from it, and for each of them what `stat` and the attempt to load it
come to. Memory comes from `safe_malloc`, which returns a block or does not return. Blocks that are
freed and handles that are closed do not show.

A read or a write outside of a string has no result.

## Main definitions

* `PluginDirectory`, `DirEntry` — what is given
* `PluginManager` — `struct plugin_manager`, with the calls of `on_error`
* `pmNew`, `pmLoadDevicePlugins`, `pmGetIterator` — the functions that clients call
-/

namespace Lc3Simulator

open CString

/-! ### What is given -/

/-- What `stat` says of a file, or what `strerror(errno)` says when it fails. -/
inductive StatResult
  | failed (errorText : String)
  | directory
  | file
  deriving DecidableEq, Repr

/-- What comes of looking for `init_device_plugin` and calling it. -/
inductive InitResult
  | notFound (dlerror : Option String)
  | failed (errorText : String)
  | device (device : Ptr)
  deriving DecidableEq, Repr

/-- What comes of `dlopen`, and of what is done with the handle. -/
inductive LoadResult
  | failed (dlerror : String)
  | opened (dlhandle : Ptr) (init : InitResult)
  deriving DecidableEq, Repr

/-- An entry of a directory, as `readdir` returns it. A name is not empty and has no slash. -/
structure DirEntry where
  dName : String
  stat : StatResult
  load : LoadResult
  dName_ne_nil : dName.toList ≠ []
  slash_not_mem : '/' ∉ dName.toList

/-- What comes of `opendir`. If `errno` is not 0 after the last entry, there is a text for it. -/
inductive OpendirResult
  | failed (errorText : String)
  | opened (entries : List DirEntry) (errorText : Option String)

/-- A directory of plugins. -/
structure PluginDirectory where
  path : String
  opendir : OpendirResult

/-! ### The manager and its errors -/

/-- `enum pm_error`. -/
inductive PmError
  | pluginLoad | opendir
  deriving DecidableEq, Repr

/-- A call of `on_error`, without the client's own data. -/
structure PmErrorCall where
  path : String
  errorString : String
  errorType : PmError
  deriving DecidableEq, Repr

/-- `struct plugin_manager`, with the callbacks of its map, and the calls of `on_error` if there is
one. -/
structure PluginManager where
  hashmap : HashMap PluginManagerEntry
  callbacks : Callbacks PluginManagerEntry
  onError : Option (List PmErrorCall)

/-- `func_null_error_string`. -/
def funcNullErrorString : String := "init_device_plugin is null"

/-- `pm_on_error`. -/
def pmOnError (pm : PluginManager) (path errorString : String) (errorType : PmError) :
    PluginManager :=
  { pm with onError := pm.onError.map (· ++ [⟨path, errorString, errorType⟩]) }

/-! ### Paths -/

/-- `build_path`, into a block of `dstSize` bytes: the path, or `none` if it is too long. -/
def buildPath (dstSize : ℕ) (directoryStr fileName : List Char) : Option (Option (List Char)) := do
  let last ← directoryStr.getLast?
  let text := if last ≠ '/' then directoryStr ++ ['/'] ++ fileName else directoryStr ++ fileName
  let (dst, combinedSize) ← snprintf dstSize dstSize text
  return if combinedSize ≥ dstSize then none else some dst

/-- `check_extension`. -/
def checkExtension (path extension : List Char) : Bool :=
  match strrchr path '.' with
  | none => false
  | some pathExt => strcmp (path.drop (pathExt + 1)) extension = 0

/-! ### The map of plugins -/

/-- A character as a `char`, which is signed, converted to a larger type. -/
def charValue (c : Char) : BitVec 64 := (BitVec.ofNat 8 c.toNat).signExtend 64

/-- `string_hash`. -/
def stringHash (str : List Char) : BitVec 64 :=
  str.foldl (fun hash c => (hash <<< 5 + hash) + charValue c) 5381

/-- `pm_hash`. -/
def pmHash (entry : PluginManagerEntry) : BitVec 64 := stringHash entry.name.toList

/-- `pm_compare`. -/
def pmCompare (entryOne entryTwo : PluginManagerEntry) : ℤ :=
  strcmp entryOne.name.toList entryTwo.name.toList

/-- The local `sizes` of `pm_build_plugins_hashmap`. -/
def pluginsSizes : List ℕ := [11, 23]

/-- The configuration of `pm_build_plugins_hashmap`, with a load factor of `.75`. -/
def pluginsConfig : HashmapConfig PluginManagerEntry where
  getHash := pmHash
  compare := pmCompare
  copyElements := true
  numElementsGrow := fun size => 3 * size / 4
  sizes := pluginsSizes
  sizes_ne_nil := by decide
  sizes_pos := by decide

/-- `pm_new`, with the blocks that `safe_malloc` returns, and with or without an error callback. -/
def pmNew (blocks : ℕ → Ptr) (hasOnError : Bool) : Option PluginManager :=
  let (hashmap, callbacks) := hashmapNew pluginsConfig ⟨fun n => some (blocks n), 0, []⟩
  hashmap.map fun hashmap => ⟨hashmap, callbacks, if hasOnError then some [] else none⟩

/-! ### Loading -/

/-- `pm_init_plugin`: the device, or a null pointer. -/
def pmInitPlugin (pm : PluginManager) (init : InitResult) (path : String) :
    Option Ptr × PluginManager :=
  match init with
  | .notFound dlerror =>
    (none, pmOnError pm path (dlerror.getD funcNullErrorString) .pluginLoad)
  | .failed errorText => (none, pmOnError pm path errorText .pluginLoad)
  | .device device => (some device, pm)

/-- `pm_load_plugin_lib`: the status, and the entry with what the status says is set. -/
def pmLoadPluginLib (pm : PluginManager) (load : LoadResult) (entry : PluginManagerEntry) :
    ℤ × PluginManagerEntry × PluginManager :=
  match load with
  | .failed dlerror => (-1, entry, pmOnError pm entry.path dlerror .pluginLoad)
  | .opened dlhandle init =>
    match pmInitPlugin pm init entry.path with
    | (none, pm) => (-1, { entry with dlhandle }, pm)
    | (some device, pm) => (0, { entry with dlhandle, device }, pm)

/-- `pm_load_plugin`. The entry is on the stack, at `entryPtr`, and what is not set yet is not read
by the callbacks of the map. -/
def pmLoadPlugin (entryPtr : Ptr) (load : LoadResult) (pm : PluginManager) (path : List Char) :
    Option PluginManager := do
  let name ← getBasename path path.length
  let entry : PluginManagerEntry := ⟨0, String.ofList name, "", 0⟩
  match hashmapGet pluginsConfig pm.hashmap ⟨entryPtr, entry⟩ with
  | some _ => return pm
  | none =>
    let (status, entry, pm) := pmLoadPluginLib pm load { entry with path := String.ofList path }
    if status < 0 then return pm
    else
      let (_, hashmap, callbacks) :=
        hashmapSet pluginsConfig pm.hashmap ⟨entryPtr, entry⟩ pm.callbacks
      return { pm with hashmap, callbacks }

section Directories

variable (pathMax : ℕ) (entryPtr : Ptr) (extension : String)

/-- The body of the loop of `pm_load_device_plugins_from_dir`. -/
def pmLoadDirEntry (dirPath : String) (pm : PluginManager) (dp : DirEntry) :
    Option PluginManager :=
  if strcmp dp.dName.toList ['.'] = 0 ∨ strcmp dp.dName.toList ['.', '.'] = 0 then some pm
  else do
    match ← buildPath pathMax dirPath.toList dp.dName.toList with
    | none => return pm
    | some path =>
      if !checkExtension path extension.toList then return pm
      else
        match dp.stat with
        | .failed errorText => return pmOnError pm (String.ofList path) errorText .pluginLoad
        | .directory => return pm
        | .file => pmLoadPlugin entryPtr dp.load pm path

/-- `pm_load_device_plugins_from_dir`. -/
def pmLoadDevicePluginsFromDir (pm : PluginManager) (dir : PluginDirectory) :
    Option PluginManager :=
  match dir.opendir with
  | .failed errorText => some (pmOnError pm dir.path errorText .opendir)
  | .opened entries errorText => do
    let pm ← entries.foldlM (pmLoadDirEntry pathMax entryPtr extension dir.path) pm
    match errorText with
    | none => return pm
    | some errorText => return pmOnError pm dir.path errorText .opendir

/-- The loop of `pm_load_device_plugins`, with the directories before index `i` to go. -/
def pmLoadLoop (dirs : List PluginDirectory) : ℕ → PluginManager → Option PluginManager
  | 0, pm => some pm
  | i + 1, pm => do
    let dir ← dirs[i]?
    let pm ← pmLoadDevicePluginsFromDir pathMax entryPtr extension pm dir
    pmLoadLoop dirs i pm

/-- `pm_load_device_plugins`. -/
def pmLoadDevicePlugins (dirs : List PluginDirectory) (pm : PluginManager) :
    Option PluginManager :=
  pmLoadLoop pathMax entryPtr extension dirs dirs.length pm

theorem pmLoadLoop_eq {dirs : List PluginDirectory} {i : ℕ} (hi : i ≤ dirs.length)
    (pm : PluginManager) : pmLoadLoop pathMax entryPtr extension dirs i pm =
      (dirs.take i).reverse.foldlM (pmLoadDevicePluginsFromDir pathMax entryPtr extension) pm := by
  induction i generalizing pm with
  | zero => rfl
  | succ i ih =>
    rw [List.take_succ_eq_append_getElem hi, List.reverse_append, List.reverse_singleton,
      List.singleton_append, List.foldlM_cons, pmLoadLoop, List.getElem?_eq_getElem hi]
    simp only [Option.bind_eq_bind, Option.bind_some, ih (Nat.le_of_lt hi)]

/-- The directories are visited from the last to the first. -/
theorem pmLoadDevicePlugins_eq (dirs : List PluginDirectory) (pm : PluginManager) :
    pmLoadDevicePlugins pathMax entryPtr extension dirs pm =
      dirs.reverse.foldlM (pmLoadDevicePluginsFromDir pathMax entryPtr extension) pm := by
  rw [pmLoadDevicePlugins, pmLoadLoop_eq pathMax entryPtr extension (Nat.le_refl _),
    List.take_length]

end Directories

/-- `pm_get_iterator`. -/
def pmGetIterator (pm : PluginManager) : Option (HashMapIterator PluginManagerEntry) :=
  (hashmapGetIterator pluginsConfig pm.hashmap pm.callbacks).1

end Lc3Simulator
