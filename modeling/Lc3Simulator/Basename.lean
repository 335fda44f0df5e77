import Lc3Simulator.Library.CString
import Mathlib.Data.List.Basic
import Mathlib.Data.List.Induction

/-!
# The base name of a path

`get_basename` of `util.c`. It finds the last slash of a path, and what follows it is the base name.
A slash at the very end is skipped, and the name is what comes before it, back to the next slash or
to the beginning.

Only one slash is skipped. Of two slashes at the end the first one stays, and becomes a part of the
name.

## Main definitions

* `getBasename` — `get_basename`, with its reads and writes checked
* `IsLastComponent` — the last run of characters between slashes
* `IsBasename` — that run, or what may stand for it when there is none

## Main results

* `getBasename_of_last`, `getBasename_of_slash` — the name, by the end of the path
* `getBasename_iff` — when it is the last component
-/

namespace Lc3Simulator

open CString

/-- The loop of `get_basename`, from `base` and `base_len` on. It leaves their last values. -/
def basenameLoop (path : List Char) : ℕ → ℕ → Option (ℕ × ℕ)
  | 0, baseLen => some (0, baseLen)
  | base + 1, baseLen => do
    let previous ← charAt path base
    if previous ≠ some '/' then basenameLoop path base (baseLen + 1) else some (base + 1, baseLen)

/-- `get_basename`. -/
def getBasename (path : List Char) (pathLen : ℕ) : Option (List Char) :=
  match strrchr path '/' with
  | none => strcpy (pathLen + 1) path
  | some 0 => strcpy pathLen (path.drop 1)
  | some (base + 1) => do
    let next ← charAt path (base + 2)
    let (base, baseLen) ←
      if next = none then basenameLoop path base 1 else some (base + 2, pathLen - (base + 2))
    let (baseResult, _) ← snprintf (baseLen + 1) (baseLen + 1) (path.drop base)
    return baseResult

/-! ### The last component -/

/-- `r` is the last of the longest runs of characters other than slashes: it is not empty, before it
is the beginning or a slash, and behind it there are slashes only. -/
def IsLastComponent (path r : List Char) : Prop :=
  ∃ front back, path = front ++ r ++ back ∧ r ≠ [] ∧ '/' ∉ r ∧
    (∀ c ∈ front.getLast?, c = '/') ∧ ∀ c ∈ back, c = '/'

/-- `r` is the last component, or the empty string or one slash if there are slashes only. -/
def IsBasename (path r : List Char) : Prop :=
  ((∀ c ∈ path, c = '/') → r = [] ∨ r = ['/']) ∧
    (¬ (∀ c ∈ path, c = '/') → IsLastComponent path r)

theorem isBasename_of_component {path r : List Char} (h : IsLastComponent path r) :
    IsBasename path r := by
  have hsome : ¬ ∀ c ∈ path, c = '/' := by
    intro hall
    obtain ⟨front, back, rfl, hne, hslash, -⟩ := h
    obtain ⟨c, hc⟩ := List.exists_mem_of_ne_nil r hne
    obtain rfl := hall c (by simp [hc])
    exact hslash hc
  exact ⟨fun hall => absurd hall hsome, fun _ => h⟩

theorem isBasename_of_slashes {path r : List Char} (h : ∀ c ∈ path, c = '/')
    (hr : r = [] ∨ r = ['/']) : IsBasename path r :=
  ⟨fun _ => hr, fun hsome => absurd h hsome⟩

/-! ### What is returned -/

theorem getBasename_of_not_mem {path : List Char} (h : '/' ∉ path) :
    getBasename path path.length = some path := by
  rw [getBasename, strrchr_of_not_mem h]
  exact strcpy_of_lt (Nat.lt_succ_self _)

/-- **A name at the end.** What follows the last slash is the name, if something follows. -/
theorem getBasename_of_last {r : List Char} (hne : r ≠ []) (hslash : '/' ∉ r)
    (front : List Char) :
    getBasename (front ++ '/' :: r) (front ++ '/' :: r).length = some r := by
  rw [getBasename, strrchr_append hslash]
  cases front with
  | nil => exact strcpy_of_lt (Nat.lt_succ_self _)
  | cons x front =>
    have hdrop : (x :: front ++ '/' :: r).drop (front.length + 2) = r := by simp
    have hlength : (x :: front ++ '/' :: r).length - (front.length + 2) = r.length := by
      rw [← List.length_drop, hdrop]
    have hnext : ∃ c, charAt (x :: front ++ '/' :: r) (front.length + 2) = some (some c) := by
      obtain ⟨c, rest, rfl⟩ := List.exists_cons_of_ne_nil hne
      exact ⟨c, by simpa using charAt_append (x :: front ++ ['/']) c rest⟩
    obtain ⟨c, hnext⟩ := hnext
    simp only [List.length_cons, hnext, Option.bind_eq_bind, Option.bind_some, reduceCtorEq,
      if_false, hdrop]
    rw [hlength, snprintf_block, List.take_length]
    rfl

/-- What comes before a place of a path: a run without slashes, back to a slash or the beginning. -/
theorem exists_lastRun (l : List Char) : ∃ start run, l = start ++ run ∧ '/' ∉ run ∧
    ∀ c ∈ start.getLast?, c = '/' := by
  by_cases h : '/' ∈ l
  · obtain ⟨front, back, rfl, hback⟩ := exists_last_of_mem h
    refine ⟨front ++ ['/'], back, by simp, hback, fun c hc => ?_⟩
    rw [List.getLast?_concat] at hc
    exact (Option.some.inj hc).symm
  · exact ⟨[], l, rfl, h, fun c hc => by cases hc⟩

/-- The loop goes back over such a run. -/
theorem basenameLoop_eq {start run : List Char} (hrun : '/' ∉ run)
    (hstart : ∀ c ∈ start.getLast?, c = '/') (back : List Char) (baseLen : ℕ) :
    basenameLoop (start ++ run ++ back) (start ++ run).length baseLen =
      some (start.length, baseLen + run.length) := by
  induction run using List.reverseRecOn generalizing back baseLen with
  | nil =>
    rcases List.eq_nil_or_concat' start with rfl | ⟨front, c, rfl⟩
    · rfl
    · obtain rfl := hstart c (by simp)
      rw [List.append_nil, List.length_append, List.length_singleton, List.append_assoc,
        List.singleton_append, basenameLoop, charAt_append]
      rfl
  | append_singleton run c ih =>
    rw [List.mem_append, List.mem_singleton, not_or] at hrun
    rw [← List.append_assoc, List.length_append, List.length_singleton, List.append_assoc,
      List.singleton_append, basenameLoop, charAt_append, Option.bind_eq_bind, Option.bind_some,
      if_pos (fun hc => hrun.2 (Option.some.inj hc).symm), ih hrun.1, List.length_append,
      List.length_singleton, Nat.add_assoc, Nat.add_comm 1]

/-- **A slash at the end.** The name ends with the character before that slash, which may be a slash
as well. -/
theorem getBasename_of_slash {start run : List Char} (hrun : '/' ∉ run)
    (hstart : ∀ c ∈ start.getLast?, c = '/') (d : Char) :
    getBasename (start ++ run ++ [d, '/']) (start ++ run ++ [d, '/']).length =
      some (run ++ [d]) := by
  have hlast : strrchr (start ++ run ++ [d, '/']) '/' = some ((start ++ run).length + 1) := by
    have hsplit : start ++ run ++ [d, '/'] = start ++ run ++ [d] ++ ['/'] := by simp
    rw [hsplit, strrchr_append List.not_mem_nil, List.length_append, List.length_singleton]
  have hnext : charAt (start ++ run ++ [d, '/']) ((start ++ run).length + 2) = some none := by
    have hlength : (start ++ run ++ [d, '/']).length = (start ++ run).length + 2 :=
      List.length_append
    rw [← hlength, charAt_length]
  have hdrop : (start ++ run ++ [d, '/']).drop start.length = run ++ [d] ++ ['/'] := by
    simp
  have htake : (run ++ [d] ++ ['/']).take (1 + run.length) = run ++ [d] :=
    List.take_left' (by simp [Nat.add_comm])
  rw [getBasename, hlast]
  simp only [hnext, Option.bind_eq_bind, Option.bind_some, if_true,
    basenameLoop_eq hrun hstart, hdrop, snprintf_block, htake]
  rfl

/-! ### When it is the last component -/

theorem slashes_suffix_iff {l : List Char} {d : Char} : ['/', '/'] <:+ l ++ [d, '/'] ↔ d = '/' := by
  have hsplit : l ++ [d, '/'] = l ++ [d] ++ ['/'] := by simp
  have hslashes : ['/', '/'] = ['/'] ++ ['/'] := rfl
  rw [hsplit, hslashes, List.suffix_append_self_iff, List.singleton_suffix_append_singleton_iff]
  exact eq_comm

theorem not_slashes_suffix {r : List Char} (hne : r ≠ []) (hslash : '/' ∉ r) (front : List Char) :
    ¬ ['/', '/'] <:+ front ++ r := by
  intro hsuffix
  obtain rfl | ⟨run, c, rfl⟩ := List.eq_nil_or_concat' r
  · exact hne rfl
  · have hlast := (List.suffix_cons '/' ['/']).trans hsuffix
    rw [← List.append_assoc, List.singleton_suffix_append_singleton_iff] at hlast
    exact hslash (List.mem_append_right run (List.mem_singleton.mpr hlast))

/-- A slash before the last one becomes a part of the name, which is right among slashes only. -/
theorem isBasename_slashes_iff {l run : List Char} (hrun : '/' ∉ run) :
    IsBasename (l ++ run ++ ['/', '/']) (run ++ ['/']) ↔
      ∀ c ∈ l ++ run ++ ['/', '/'], c = '/' := by
  by_cases hall : ∀ c ∈ l ++ run ++ ['/', '/'], c = '/'
  · have hempty : run = [] := by
      refine List.eq_nil_iff_forall_not_mem.mpr fun c hc => ?_
      obtain rfl := hall c (by simp [hc])
      exact hrun hc
    exact iff_of_true (isBasename_of_slashes hall (Or.inr (by rw [hempty]; rfl))) hall
  · refine iff_of_false ?_ hall
    intro hname
    obtain ⟨front, back, -, -, hslash, -⟩ := hname.2 hall
    exact hslash (by simp)

/-- **The base name is the last component**, or stands for it, exactly if the path has slashes only
or does not end in two slashes. It never reads outside the path or writes outside its block. -/
theorem getBasename_iff {path : List Char} (hpath : path ≠ []) :
    ∃ r, getBasename path path.length = some r ∧
      (IsBasename path r ↔ (∀ c ∈ path, c = '/') ∨ ¬ ['/', '/'] <:+ path) := by
  by_cases hslash : '/' ∈ path
  · obtain ⟨front, r, rfl, hr⟩ := exists_last_of_mem hslash
    by_cases hne : r = []
    · subst hne
      obtain rfl | ⟨front, d, rfl⟩ := List.eq_nil_or_concat' front
      · exact ⟨[], rfl, iff_of_true (isBasename_of_slashes (by simp) (Or.inl rfl)) (by simp)⟩
      · obtain ⟨start, run, rfl, hrun, hstart⟩ := exists_lastRun front
        have hsplit : start ++ run ++ [d] ++ ['/'] = start ++ run ++ [d, '/'] := by simp
        rw [hsplit]
        refine ⟨run ++ [d], getBasename_of_slash hrun hstart d, ?_⟩
        rw [slashes_suffix_iff]
        by_cases hd : d = '/'
        · subst hd
          rw [isBasename_slashes_iff hrun]
          exact (or_iff_left (not_not.mpr rfl)).symm
        · have hname : '/' ∉ run ++ [d] := by simp [hrun, Ne.symm hd]
          exact iff_of_true (isBasename_of_component
            ⟨start, ['/'], by simp, by simp, hname, hstart, by simp⟩) (Or.inr hd)
    · refine ⟨r, getBasename_of_last hne hr front, iff_of_true ?_ (Or.inr ?_)⟩
      · exact isBasename_of_component ⟨front ++ ['/'], [], by simp, hne, hr, by simp, by simp⟩
      · rw [List.append_cons]
        exact not_slashes_suffix hne hr _
  · refine ⟨path, getBasename_of_not_mem hslash, iff_of_true ?_ (Or.inr ?_)⟩
    · exact isBasename_of_component ⟨[], [], by simp, hpath, hslash, by simp, by simp⟩
    · exact not_slashes_suffix hpath hslash []

/-- One slash at the end is skipped. -/
theorem getBasename_iff_plugins :
    ∃ r, getBasename "/usr//local/plugins/".toList 20 = some r ∧
      IsBasename "/usr//local/plugins/".toList r := by
  have hpath : "/usr//local/plugins/".toList ≠ [] := by decide
  obtain ⟨r, hr, hiff⟩ := getBasename_iff hpath
  exact ⟨r, hr, hiff.mpr (Or.inr (by decide))⟩

/-- Of two slashes one stays. -/
theorem getBasename_two_slashes :
    getBasename ['a', '/', '/'] 3 = some ['a', '/'] ∧
      ¬ IsBasename ['a', '/', '/'] ['a', '/'] := by
  refine ⟨by decide, fun hname => ?_⟩
  have hall := (isBasename_slashes_iff (l := []) (List.mem_singleton.not.mpr (by decide))).mp hname
  exact absurd (hall 'a' List.mem_cons_self) (by decide)

end Lc3Simulator
