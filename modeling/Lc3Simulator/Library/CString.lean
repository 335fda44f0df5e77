import Mathlib.Data.Int.Notation
import Mathlib.Data.List.TakeWhile
import Mathlib.Tactic.IntervalCases
import Mathlib.Tactic.Ring

/-!
# C strings

A C string is the list of its characters without the terminating null, and a pointer into it is
what is left from there on. So the pointer that `strtol` stores in `*endptr` is the rest of the
string, it points to the null when the rest is empty, and it is the string itself when no number
was found. Where pointers are compared or moved backwards, they are indices.

A function that reads behind the null, or writes behind the block it is given, has no result.

## Main definitions

* `strtol` — the number at the beginning of a string, and what follows it
* `fixedDigits` — a number with a fixed number of digits, as `%04X` prints it
* `charAt`, `strrchr`, `strcmp`, `strtok` — reading a string by its indices, comparing it, and
  splitting it at its delimiters
* `strcpy`, `snprintf` — writing a string into a block

## Main results

* `readDigits_fixedDigits` — digits that were printed are read back
* `strtol_fixedDigits` — and so are hexadecimal numbers with their prefix
* `strtok_word`, `strtok_skip` — finding the words between delimiters
* `strrchr_append` — the last place of a character
-/

namespace CString

/-- `isspace`, in the C locale. -/
def isSpace (c : Char) : Bool :=
  c = ' ' ∨ 9 ≤ c.toNat ∧ c.toNat ≤ 13

/-- The value of a digit, in any base up to 36. -/
def digitValue (c : Char) : Option ℕ :=
  if '0' ≤ c ∧ c ≤ '9' then some (c.toNat - '0'.toNat)
  else if 'a' ≤ c ∧ c ≤ 'z' then some (c.toNat - 'a'.toNat + 10)
  else if 'A' ≤ c ∧ c ≤ 'Z' then some (c.toNat - 'A'.toNat + 10)
  else none

def isDigit (base : ℕ) (c : Char) : Bool := (digitValue c).any (· < base)

/-- The number that some digits stand for. -/
def readDigits (base : ℕ) (digits : List Char) : ℕ :=
  digits.foldl (fun n c => n * base + (digitValue c).getD 0) 0

/-- Whether there is a minus sign, and what follows the sign. -/
def skipSign : List Char → Bool × List Char
  | '-' :: rest => (true, rest)
  | '+' :: rest => (false, rest)
  | str => (false, str)

/-- The prefix of a hexadecimal number is one only in front of a digit. -/
def skipHexPrefix : List Char → List Char
  | '0' :: x :: c :: rest =>
    if (x = 'x' ∨ x = 'X') ∧ isDigit 16 c then c :: rest else '0' :: x :: c :: rest
  | str => str

def longMin : ℤ := -2 ^ 63
def longMax : ℤ := 2 ^ 63 - 1

/-- `strtol(str, &endptr, base)`, for a base from 2 to 36: the number and `endptr`. A number out of
range is the nearest `long`. -/
def strtol (base : ℕ) (str : List Char) : ℤ × List Char :=
  let sign := skipSign (str.dropWhile isSpace)
  let rest := if base = 16 then skipHexPrefix sign.2 else sign.2
  let digits := rest.takeWhile (isDigit base)
  if digits = [] then (0, str)
  else
    let value : ℤ := if sign.1 then -readDigits base digits else readDigits base digits
    (max longMin (min longMax value), rest.dropWhile (isDigit base))

/-! ### Printing -/

/-- The digit with a value below 16, in upper case. -/
def digitChar (d : ℕ) : Char :=
  if d < 10 then Char.ofNat ('0'.toNat + d) else Char.ofNat ('A'.toNat + (d - 10))

/-- The last `width` digits of a number, with leading zeros. -/
def fixedDigits (base : ℕ) : ℕ → ℕ → List Char
  | 0, _ => []
  | width + 1, n => fixedDigits base width (n / base) ++ [digitChar (n % base)]

@[simp] theorem length_fixedDigits (base width n : ℕ) :
    (fixedDigits base width n).length = width := by
  induction width generalizing n with
  | zero => rfl
  | succ width ih => rw [fixedDigits, List.length_append, ih, List.length_singleton]

theorem digitValue_digitChar {d : ℕ} (h : d < 16) : digitValue (digitChar d) = some d := by
  interval_cases d <;> rfl

theorem isDigit_of_mem_fixedDigits {base : ℕ} (hbase : 0 < base) (hle : base ≤ 16) {width n : ℕ} :
    ∀ c ∈ fixedDigits base width n, isDigit base c = true := by
  induction width generalizing n with
  | zero => exact fun c hc => absurd hc List.not_mem_nil
  | succ width ih =>
    intro c hc
    rcases List.mem_append.mp hc with hc | hc
    · exact ih c hc
    · obtain rfl := List.mem_singleton.mp hc
      have hlt : n % base < base := Nat.mod_lt n hbase
      rw [isDigit, digitValue_digitChar (hlt.trans_le hle)]
      simpa using hlt

/-- **Digits that were printed are read back.** -/
theorem readDigits_fixedDigits {base : ℕ} (hbase : 0 < base) (hle : base ≤ 16) (width n : ℕ) :
    readDigits base (fixedDigits base width n) = n % base ^ width := by
  induction width generalizing n with
  | zero => rw [pow_zero, Nat.mod_one]; rfl
  | succ width ih =>
    have hlt : n % base < 16 := (Nat.mod_lt n hbase).trans_le hle
    have hlast : readDigits base (fixedDigits base width (n / base) ++ [digitChar (n % base)]) =
        readDigits base (fixedDigits base width (n / base)) * base + n % base := by
      rw [readDigits, List.foldl_append, List.foldl_cons, List.foldl_nil,
        digitValue_digitChar hlt]
      rfl
    rw [fixedDigits, hlast, ih, pow_succ', Nat.mod_mul]
    ring

/-- **A hexadecimal number that was printed is read back.** -/
theorem strtol_fixedDigits (width n : ℕ) :
    strtol 16 ('0' :: 'X' :: fixedDigits 16 (width + 1) n) =
      (min longMax ((n % 16 ^ (width + 1) : ℕ) : ℤ), []) := by
  have hdigits : ∀ c ∈ fixedDigits 16 (width + 1) n, isDigit 16 c = true :=
    isDigit_of_mem_fixedDigits (by decide) le_rfl
  have hread : readDigits 16 (fixedDigits 16 (width + 1) n) = n % 16 ^ (width + 1) :=
    readDigits_fixedDigits (by decide) le_rfl (width + 1) n
  generalize hlist : fixedDigits 16 (width + 1) n = digits at hdigits hread
  cases digits with
  | nil => simp [fixedDigits] at hlist
  | cons c rest =>
    have hskip : skipHexPrefix ('0' :: 'X' :: c :: rest) = c :: rest :=
      if_pos ⟨Or.inr rfl, hdigits c List.mem_cons_self⟩
    have htake : (c :: rest).takeWhile (isDigit 16) = c :: rest :=
      List.takeWhile_eq_self_iff.mpr hdigits
    have hdrop : (c :: rest).dropWhile (isDigit 16) = [] :=
      List.dropWhile_eq_nil_iff.mpr hdigits
    have hsign : skipSign (('0' :: 'X' :: c :: rest).dropWhile isSpace) =
        (false, '0' :: 'X' :: c :: rest) := rfl
    have hmin : longMin ≤ min longMax (n % 16 ^ (width + 1) : ℕ) :=
      le_min (by decide) ((by decide : longMin ≤ 0).trans (Int.natCast_nonneg _))
    rw [strtol, hsign]
    simp only [hskip, htake, hdrop, hread, if_true, if_neg (List.cons_ne_nil c rest),
      Bool.false_eq_true, if_false, max_eq_right hmin]

/-! ### Reading and writing -/

/-- The character at an index, which is `none` for the terminating null. -/
def charAt (str : List Char) (index : ℕ) : Option (Option Char) :=
  if index ≤ str.length then some str[index]? else none

/-- `strrchr`, for a character that is not the null. -/
def strrchr : List Char → Char → Option ℕ
  | [], _ => none
  | x :: rest, c =>
    match strrchr rest c with
    | some index => some (index + 1)
    | none => if x = c then some 0 else none

/-- `strcmp`, of which only the sign counts. -/
def strcmp : List Char → List Char → ℤ
  | [], [] => 0
  | [], _ :: _ => -1
  | _ :: _, [] => 1
  | a :: rest, b :: rest' => if a = b then strcmp rest rest' else if a < b then -1 else 1

/-- The tokens that calls of `strtok_r` find: the longest runs of characters that are no delimiters,
from the first to the last. -/
def strtok (delims : List Char) (str : List Char) : List (List Char) :=
  (str.splitOnP (· ∈ delims)).filter (· ≠ [])

/-- `strcpy`, into a block of `blockSize` bytes. -/
def strcpy (blockSize : ℕ) (src : List Char) : Option (List Char) :=
  if src.length < blockSize then some src else none

/-- `snprintf(dst, size, …)` of a text, for a positive `size` and into a block of `blockSize` bytes:
what it writes and what it returns. -/
def snprintf (blockSize size : ℕ) (text : List Char) : Option (List Char × ℕ) :=
  if min size (text.length + 1) ≤ blockSize then some (text.take (size - 1), text.length) else none

theorem charAt_append (front : List Char) (c : Char) (back : List Char) :
    charAt (front ++ c :: back) front.length = some (some c) := by
  rw [charAt, if_pos (by simp), List.getElem?_append_right le_rfl, Nat.sub_self,
    List.getElem?_cons_zero]

theorem charAt_length (str : List Char) : charAt str str.length = some none := by
  rw [charAt, if_pos le_rfl, List.getElem?_eq_none le_rfl]

theorem strcpy_of_lt {blockSize : ℕ} {src : List Char} (h : src.length < blockSize) :
    strcpy blockSize src = some src := if_pos h

/-- Into a block of the right size `snprintf` writes as much as there is place for. -/
theorem snprintf_block (size : ℕ) (text : List Char) :
    snprintf (size + 1) (size + 1) text = some (text.take size, text.length) :=
  if_pos (Nat.min_le_left _ _)

theorem strcmp_eq_zero_iff {str str' : List Char} : strcmp str str' = 0 ↔ str = str' := by
  induction str generalizing str' with
  | nil => cases str' <;> simp [strcmp]
  | cons a rest ih =>
    cases str' with
    | nil => simp [strcmp]
    | cons b rest' =>
      by_cases hab : a = b
      · simp [strcmp, hab, ih]
      · have hne : strcmp (a :: rest) (b :: rest') ≠ 0 := by
          rw [strcmp, if_neg hab]
          split <;> decide
        exact iff_of_false hne fun h => hab (List.cons.inj h).1

/-- A word is found, and then what follows it. -/
theorem strtok_word {delims word : List Char} (hne : word ≠ []) (hword : ∀ c ∈ word, c ∉ delims)
    {delim : Char} (hdelim : delim ∈ delims) (rest : List Char) :
    strtok delims (word ++ delim :: rest) = word :: strtok delims rest := by
  rw [strtok, List.splitOnP_append_cons_of_forall_mem
    (fun c hc => decide_eq_false (hword c hc)) delim (decide_eq_true hdelim)]
  exact List.filter_cons_of_pos (decide_eq_true hne)

/-- Delimiters in front of a word are skipped. -/
theorem strtok_skip {delims : List Char} {delim : Char} (hdelim : delim ∈ delims)
    (rest : List Char) : strtok delims (delim :: rest) = strtok delims rest := by
  have hsplit : (delim :: rest).splitOnP (· ∈ delims) = [] :: rest.splitOnP (· ∈ delims) :=
    List.splitOnP_append_cons_of_forall_mem (List.forall_mem_nil _) delim (decide_eq_true hdelim)
      rest
  rw [strtok, hsplit, strtok]
  exact List.filter_cons_of_neg (by simp)

theorem strtok_replicate {delims : List Char} {delim : Char} (hdelim : delim ∈ delims) (n : ℕ)
    (rest : List Char) : strtok delims (List.replicate n delim ++ rest) = strtok delims rest := by
  induction n with
  | zero => rfl
  | succ n ih => rw [List.replicate_succ, List.cons_append, strtok_skip hdelim, ih]

theorem strrchr_of_not_mem {c : Char} {str : List Char} (h : c ∉ str) : strrchr str c = none := by
  induction str with
  | nil => rfl
  | cons x rest ih =>
    rw [List.mem_cons, not_or] at h
    rw [strrchr, ih h.2]
    exact if_neg (Ne.symm h.1)

/-- **The last place of a character.** -/
theorem strrchr_append {c : Char} {back : List Char} (h : c ∉ back) (front : List Char) :
    strrchr (front ++ c :: back) c = some front.length := by
  induction front with
  | nil =>
    rw [List.nil_append, strrchr, strrchr_of_not_mem h]
    exact if_pos rfl
  | cons x front ih =>
    rw [List.cons_append, strrchr, ih]
    rfl

/-- A character that occurs has a last place. -/
theorem exists_last_of_mem {c : Char} {str : List Char} (h : c ∈ str) :
    ∃ front back, str = front ++ c :: back ∧ c ∉ back := by
  obtain ⟨front, back, hsplit, hfront⟩ := List.eq_append_cons_of_mem (List.mem_reverse.mpr h)
  refine ⟨back.reverse, front.reverse, ?_, mt List.mem_reverse.mp hfront⟩
  rw [← List.reverse_reverse str, hsplit]
  simp

end CString
