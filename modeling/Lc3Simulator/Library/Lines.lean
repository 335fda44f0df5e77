import Mathlib.Data.List.Basic

/-!
# Reading lines

`fgets` reads a stream a line at a time, as far as the line fits into the buffer that it is given;
of a longer line it reads a part, and the next call goes on from there. So what a program reads with
it are chunks of the stream, and a line that is not too long is a chunk.

## Main definitions

* `fgets` — the next chunk, and the rest of the stream
* `text` — the text of some lines

## Main results

* `text_cons` — the first of some lines
* `fgets_line` — a line that fits is read as it is
-/

namespace Lines

/-- At most `n` characters, up to the end of the line, and the rest. -/
def takeLine : ℕ → List Char → List Char × List Char
  | 0, stream => ([], stream)
  | _ + 1, [] => ([], [])
  | n + 1, c :: stream =>
    if c = '\n' then ([c], stream)
    else
      let (line, rest) := takeLine n stream
      (c :: line, rest)

/-- `fgets(buffer, size, stream)`: what is in the buffer then, and the rest of the stream. At the
end of the stream there is nothing to read. -/
def fgets (size : ℕ) (stream : List Char) : Option (List Char × List Char) :=
  if stream = [] then none else some (takeLine (size - 1) stream)

/-- The text of some lines. -/
def text (lines : List (List Char)) : List Char := lines.flatMap fun line => line ++ ['\n']

theorem text_cons (line : List Char) (lines : List (List Char)) :
    text (line :: lines) = line ++ '\n' :: text lines := by
  rw [text, List.flatMap_cons, List.append_assoc]
  rfl

/-- A line that fits is taken with its end. -/
theorem takeLine_line {line : List Char} (hend : '\n' ∉ line) {n : ℕ} (hfits : line.length < n)
    (rest : List Char) : takeLine n (line ++ '\n' :: rest) = (line ++ ['\n'], rest) := by
  induction line generalizing n with
  | nil =>
    obtain ⟨n, rfl⟩ := Nat.exists_eq_succ_of_ne_zero (Nat.ne_zero_of_lt hfits)
    rfl
  | cons c line ih =>
    obtain ⟨n, rfl⟩ := Nat.exists_eq_succ_of_ne_zero (Nat.ne_zero_of_lt hfits)
    rw [List.mem_cons, not_or] at hend
    rw [List.cons_append, takeLine, if_neg (Ne.symm hend.1),
      ih hend.2 (Nat.lt_of_succ_lt_succ hfits)]
    rfl

theorem fgets_line {size : ℕ} {line : List Char} (hend : '\n' ∉ line)
    (hfits : line.length + 1 < size) (rest : List Char) :
    fgets size (line ++ '\n' :: rest) = some (line ++ ['\n'], rest) := by
  rw [fgets, if_neg (by simp), takeLine_line hend (Nat.lt_sub_of_add_lt hfits)]

end Lines
