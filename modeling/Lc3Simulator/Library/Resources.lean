import Lc3Simulator.Library.Transition
import Mathlib.Data.Multiset.OrderedMonoid

/-!
# Resources that are acquired and released

A program acquires resources and has to release them, once each. One resource may need others, which
have to be held while it is acquired and while it is released: what was made by a library cannot be
used when the library is closed.

What a program does with its resources is a list of uses. It is lawful from some resources to others
if every use is possible and the latter are held in the end. What else is held does not matter, so
lawful uses of parts of a program are put together like the parts.

## Main definitions

* `Use`, `useStep` — one use, and what is held after it
* `Lawful` — uses that are possible one after another
* `logged` — steps together with their uses

## Main results

* `Lawful.frame`, `Lawful.append` — more is held, and one part after the other
* `Lawful.acquiring`, `Lawful.releasing` — uses that begin or end with nothing held
* `Lawful.flatMap` — uses that release some resources each
* `lawful_foldlM` — the steps of a loop
-/

namespace Resources

variable {ρ : Type*}

/-- One use of a resource. -/
inductive Use (ρ : Type*)
  | acquire (r : ρ)
  | release (r : ρ)
  deriving DecidableEq, Repr

variable [DecidableEq ρ]

/-- What is held after a use, if it is possible. -/
def useStep (needs : ρ → Multiset ρ) (held : Multiset ρ) : Use ρ → Option (Multiset ρ)
  | .acquire r => if needs r ≤ held then some (r ::ₘ held) else none
  | .release r =>
    if r ∈ held ∧ needs r ≤ held.erase r then some (held.erase r) else none

/-- All the uses are possible, and lead from what is held to what is held then. -/
def Lawful (needs : ρ → Multiset ρ) (uses : List (Use ρ)) (held held' : Multiset ρ) : Prop :=
  uses.foldlM (useStep needs) held = some held'

variable {needs : ρ → Multiset ρ} {uses uses' : List (Use ρ)} {held held' held'' : Multiset ρ}

theorem lawful_nil (held : Multiset ρ) : Lawful needs [] held held := rfl

theorem Lawful.append (h : Lawful needs uses held held') (h' : Lawful needs uses' held' held'') :
    Lawful needs (uses ++ uses') held held'' := by
  rw [Lawful, List.foldlM_append, h]
  exact h'

theorem lawful_acquire {r : ρ} (h : needs r ≤ held) :
    Lawful needs [.acquire r] held (r ::ₘ held) := by
  rw [Lawful, List.foldlM_cons, useStep, if_pos h]
  rfl

theorem lawful_release {r : ρ} (h : needs r ≤ held) :
    Lawful needs [.release r] (r ::ₘ held) held := by
  rw [Lawful, List.foldlM_cons, useStep, Multiset.erase_cons_head,
    if_pos ⟨Multiset.mem_cons_self r held, h⟩]
  rfl

theorem useStep_frame {use : Use ρ} (h : useStep needs held use = some held')
    (more : Multiset ρ) : useStep needs (held + more) use = some (held' + more) := by
  cases use with
  | acquire r =>
    rw [useStep] at h ⊢
    split_ifs at h with hneeds
    obtain rfl := Option.some.inj h
    rw [if_pos (hneeds.trans (Multiset.le_add_right _ _)), Multiset.cons_add]
  | release r =>
    rw [useStep] at h ⊢
    split_ifs at h with hpossible
    obtain rfl := Option.some.inj h
    rw [Multiset.erase_add_left_pos _ hpossible.1, if_pos]
    exact ⟨Multiset.mem_add.mpr (Or.inl hpossible.1),
      hpossible.2.trans (Multiset.le_add_right _ _)⟩

/-- **What else is held** does not matter. -/
theorem Lawful.frame (h : Lawful needs uses held held') (more : Multiset ρ) :
    Lawful needs uses (held + more) (held' + more) := by
  induction uses generalizing held with
  | nil =>
    obtain rfl := Option.some.inj h
    rfl
  | cons use uses ih =>
    obtain ⟨held₁, hstep, hrest⟩ := Option.bind_eq_some_iff.mp h
    rw [Lawful, List.foldlM_cons, useStep_frame hstep more]
    exact ih hrest

/-- Uses that need nothing to begin with. -/
theorem Lawful.acquiring (h : Lawful needs uses 0 held) (more : Multiset ρ) :
    Lawful needs uses more (held + more) := by
  have hframe := h.frame more
  rwa [zero_add] at hframe

/-- Uses that leave nothing in the end. -/
theorem Lawful.releasing (h : Lawful needs uses held 0) (more : Multiset ρ) :
    Lawful needs uses (held + more) more := by
  have hframe := h.frame more
  rwa [zero_add] at hframe

/-- Uses that release some resources each. -/
theorem Lawful.flatMap {β : Type*} {f : β → List (Use ρ)} {g : β → Multiset ρ}
    (h : ∀ b, Lawful needs (f b) (g b) 0) (bs : List β) :
    Lawful needs (bs.flatMap f) (bs.map g).sum 0 := by
  induction bs with
  | nil => exact lawful_nil 0
  | cons b bs ih =>
    rw [List.flatMap_cons, List.map_cons, List.sum_cons]
    exact ((h b).releasing _).append ih

/-! ### Steps and their uses -/

section Logged

variable {σ Act : Type*}

/-- A step, with its uses after those made so far. -/
def logged (step : σ → Act → Option σ) (uses : σ → Act → Option (List (Use ρ)))
    (x : σ × List (Use ρ)) (a : Act) : Option (σ × List (Use ρ)) :=
  (uses x.1 a).bind fun made => (step x.1 a).map fun s => (s, x.2 ++ made)

/-- **The steps of a loop.** If the uses of every step are lawful, so are those of all steps. What
is kept may speak of the steps done so far. -/
theorem lawful_foldlM {step : σ → Act → Option σ} {uses : σ → Act → Option (List (Use ρ))}
    {I : List Act → σ → Multiset ρ → Prop}
    (hstep : ∀ done s held a s', I done s held → step s a = some s' →
      ∃ made held', uses s a = some made ∧ Lawful needs made held held' ∧ I (done ++ [a]) s' held')
    (done : List Act) {acts : List Act} {s s' : σ} {held : Multiset ρ}
    (hrun : acts.foldlM step s = some s') (hI : I done s held) (before : List (Use ρ)) :
    ∃ made held', acts.foldlM (logged step uses) (s, before) = some (s', before ++ made) ∧
      Lawful needs made held held' ∧ I (done ++ acts) s' held' := by
  induction acts generalizing done s held before with
  | nil =>
    obtain rfl := Option.some.inj hrun
    refine ⟨[], held, by rw [List.append_nil]; rfl, lawful_nil held, ?_⟩
    rwa [List.append_nil]
  | cons a acts ih =>
    obtain ⟨s₁, hfirst, hrest⟩ := Option.bind_eq_some_iff.mp hrun
    obtain ⟨made, held₁, huses, hlawful, hI₁⟩ := hstep done s held a s₁ hI hfirst
    obtain ⟨made', held', hlogged, hlawful', hI'⟩ := ih (done ++ [a]) hrest hI₁ (before ++ made)
    refine ⟨made ++ made', held', ?_, hlawful.append hlawful', ?_⟩
    · rw [List.foldlM_cons, logged, huses, Option.bind_some, hfirst, ← List.append_assoc]
      exact hlogged
    · rwa [List.append_cons]

end Logged

end Resources
