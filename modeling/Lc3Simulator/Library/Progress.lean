import Mathlib.Data.Nat.Notation
import Mathlib.Data.Option.Basic

/-!
# Where a machine gets to

A machine that takes one step after another, until it stops, gets to a property if some state on its
way has it. Facts of this kind are put together like the program that the machine runs, one part
after the other. So they say that the program comes to an end, and not only what holds if it does.

A second machine that takes a step for every step of the first, and stays related to it, gets to
whatever the first one gets to.

## Main definitions

* `Eventually` — the machine gets to a state with the property
* `iterate` — several steps

## Main results

* `Eventually.trans` — one part after another
* `Eventually.simulate` — machines that follow one another
* `eventually_iff` — the steps can be counted
-/

namespace Progress

variable {σ τ : Type*}

/-- From a state with the property, or from any whose next state is such a state. -/
inductive Eventually (step : σ → Option σ) (Q : σ → Prop) : σ → Prop
  | now {s : σ} (h : Q s) : Eventually step Q s
  | later {s s' : σ} (hstep : step s = some s') (h : Eventually step Q s') : Eventually step Q s

/-- The state after `n` steps, if the machine does not stop before. -/
def iterate (step : σ → Option σ) : ℕ → σ → Option σ
  | 0, s => some s
  | n + 1, s => (step s).bind (iterate step n)

variable {step : σ → Option σ} {P Q : σ → Prop} {s s' : σ}

theorem Eventually.mono (h : Eventually step P s) (hPQ : ∀ s, P s → Q s) :
    Eventually step Q s := by
  induction h with
  | now hP => exact .now (hPQ _ hP)
  | later hstep _ ih => exact .later hstep ih

/-- One part after another. -/
theorem Eventually.trans (h : Eventually step P s) (hPQ : ∀ s, P s → Eventually step Q s) :
    Eventually step Q s := by
  induction h with
  | now hP => exact hPQ _ hP
  | later hstep _ ih => exact .later hstep ih

/-- What every step keeps is so when the machine gets there. -/
theorem Eventually.keep {I : σ → Prop} (hI : ∀ s s', I s → step s = some s' → I s')
    (h : Eventually step Q s) (hs : I s) : Eventually step (fun s' => Q s' ∧ I s') s := by
  induction h with
  | now hQ => exact .now ⟨hQ, hs⟩
  | later hstep _ ih => exact .later hstep (ih (hI _ _ hs hstep))

/-- **Machines that follow one another.** -/
theorem Eventually.simulate {step' : τ → Option τ} {R : σ → τ → Prop}
    (hR : ∀ s t s', R s t → step s = some s' → ∃ t', step' t = some t' ∧ R s' t')
    (h : Eventually step Q s) {t : τ} (hst : R s t) :
    Eventually step' (fun t' => ∃ s', R s' t' ∧ Q s') t := by
  induction h generalizing t with
  | now hQ => exact .now ⟨_, hst, hQ⟩
  | later hstep _ ih =>
    obtain ⟨t', hstep', hst'⟩ := hR _ _ _ hst hstep
    exact .later hstep' (ih hst')

/-- Some steps, and then others. -/
theorem iterate_add (n m : ℕ) (s : σ) :
    iterate step (n + m) s = (iterate step n s).bind (iterate step m) := by
  induction n generalizing s with
  | zero => rw [Nat.zero_add, iterate, Option.bind_some]
  | succ n ih =>
    rw [Nat.succ_add, iterate, iterate, Option.bind_assoc]
    exact Option.bind_congr fun s₁ _ => ih s₁

/-- Where the machine gets to after some steps, it gets to. -/
theorem Eventually.of_iterate {n : ℕ} (hiterate : iterate step n s = some s')
    (h : Eventually step Q s') : Eventually step Q s := by
  induction n generalizing s with
  | zero =>
    obtain rfl := Option.some.inj hiterate
    exact h
  | succ n ih =>
    obtain ⟨s₁, hstep, hrest⟩ := Option.bind_eq_some_iff.mp hiterate
    exact .later hstep (ih hrest)

/-- The steps can be counted. -/
theorem eventually_iff : Eventually step Q s ↔ ∃ n s', iterate step n s = some s' ∧ Q s' := by
  constructor
  · intro h
    induction h with
    | now hQ => exact ⟨0, _, rfl, hQ⟩
    | later hstep _ ih =>
      obtain ⟨n, s', hiterate, hQ⟩ := ih
      exact ⟨n + 1, s', by rw [iterate, hstep]; exact hiterate, hQ⟩
  · rintro ⟨n, s', hiterate, hQ⟩
    exact .of_iterate hiterate (.now hQ)

end Progress
