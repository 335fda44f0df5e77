import Mathlib.Data.Option.Basic
import Mathlib.Data.List.Basic

/-!
# Runs of a machine that may get stuck

A machine answers an action with an output and a next state, or gets stuck. This file runs lists
of actions and collects the induction principles for such runs, so that a development proves
facts about one step and never repeats the induction over the run.

## Main definitions

* `run` — the outputs and the last state of a list of actions
* `Along` — a condition on (action, state before it) that holds at every step of a run
* `AlongUntil` — such a condition, up to the first step that meets another one
* `StepsAlong` — a relation between every step of a run and what follows it
* `Leads` — some run of actions of a kind
* `Traces` — such a run, with what an observer sees of it
* `Safe` — no action of the run gets stuck, and a property holds in every state of the run
* `AgreeUpTo` — the same result, in related states
* `Spec.run` — a run of a total machine, the shape an abstract model has

## Main results

* `run_invariant`, `run_invariant_of_along` — invariants, without and with a condition on steps
* `safe_iff_along` — a run is safe exactly when every step meets the condition that keeps an
  invariant and whose absence breaks safety at once
* `Traces.of_run` — steps that are runs of another machine, seen as the same trace
* `run_refines` — one-step refinement lifts to runs
-/

namespace Transition

variable {σ Act Out : Type*}

/-- The outputs and the last state of a run, unless some action gets stuck. -/
def run (step : Act → σ → Option (Out × σ)) : List Act → σ → Option (List Out × σ)
  | [], s => some ([], s)
  | a :: acts, s =>
    (step a s).bind fun x => (run step acts x.2).map fun y => (x.1 :: y.1, y.2)

variable {step : Act → σ → Option (Out × σ)}

@[simp] theorem run_nil (s : σ) : run step [] s = some ([], s) := rfl

theorem run_cons (a : Act) (acts : List Act) (s : σ) :
    run step (a :: acts) s =
      (step a s).bind fun x => (run step acts x.2).map fun y => (x.1 :: y.1, y.2) := rfl

/-- A run of `a :: acts` that does not get stuck is a step and then a run. -/
theorem run_cons_eq_some {a : Act} {acts : List Act} {s s' : σ} {outs : List Out}
    (h : run step (a :: acts) s = some (outs, s')) :
    ∃ out s₁ rest, step a s = some (out, s₁) ∧ run step acts s₁ = some (rest, s') ∧
      outs = out :: rest := by
  rw [run_cons] at h
  obtain ⟨⟨out, s₁⟩, hx, h⟩ := Option.bind_eq_some_iff.mp h
  obtain ⟨⟨rest, s₂⟩, hy, h⟩ := Option.map_eq_some_iff.mp h
  obtain ⟨rfl, rfl⟩ := Prod.mk.inj h
  exact ⟨out, s₁, rest, hx, hy, rfl⟩

/-- A run of two lists is one run after the other. -/
theorem run_append {acts acts' : List Act} {s s₁ s₂ : σ} {outs outs' : List Out}
    (h : run step acts s = some (outs, s₁)) (h' : run step acts' s₁ = some (outs', s₂)) :
    run step (acts ++ acts') s = some (outs ++ outs', s₂) := by
  induction acts generalizing s outs with
  | nil =>
    obtain ⟨rfl, rfl⟩ := Prod.mk.inj (Option.some.inj h)
    exact h'
  | cons a acts ih =>
    obtain ⟨out, s₃, rest, hstep, hrest, rfl⟩ := run_cons_eq_some h
    rw [List.cons_append, run_cons, hstep]
    simp [ih hrest]

/-- Every action has an output. -/
theorem length_of_run {acts : List Act} {s s' : σ} {outs : List Out}
    (h : run step acts s = some (outs, s')) : outs.length = acts.length := by
  induction acts generalizing s outs with
  | nil =>
    obtain ⟨rfl, -⟩ := Prod.mk.inj (Option.some.inj h)
    rfl
  | cons a acts ih =>
    obtain ⟨out, s₁, rest, -, hrest, rfl⟩ := run_cons_eq_some h
    exact congrArg (· + 1) (ih hrest)

/-- The last state of a run is that of the fold that forgets the outputs. -/
theorem run_map_snd (acts : List Act) (s : σ) :
    (run step acts s).map Prod.snd = acts.foldlM (fun s a => (step a s).map Prod.snd) s := by
  induction acts generalizing s with
  | nil => rfl
  | cons a acts ih =>
    rw [run_cons, List.foldlM_cons]
    cases hstep : step a s with
    | none => rfl
    | some x =>
      simp only [Option.bind_some, Option.map_map, Option.map_some, Option.bind_eq_bind, ← ih]
      rfl

/-- Outputs that are seen through a function are seen so along the run. -/
theorem run_map_out {Out' : Type*} (f : Out → Out') (acts : List Act) (s : σ) :
    run (fun a s => (step a s).map (Prod.map f id)) acts s =
      (run step acts s).map (Prod.map (List.map f) id) := by
  induction acts generalizing s with
  | nil => rfl
  | cons a acts ih =>
    rw [run_cons, run_cons]
    cases hstep : step a s with
    | none => rfl
    | some x =>
      simp only [Option.map_some, Option.bind_some, Prod.map_snd, id_eq, ih, Option.map_map]
      rfl

/-! ### Invariants -/

/-- `C` holds of every action of the run and the state it is taken in. Beyond a step that gets
stuck there is nothing left to ask. -/
def Along (step : Act → σ → Option (Out × σ)) (C : Act → σ → Prop) : List Act → σ → Prop
  | [], _ => True
  | a :: acts, s => C a s ∧ ∀ out s', step a s = some (out, s') → Along step C acts s'

theorem along_of_forall {C : Act → σ → Prop} (h : ∀ a s, C a s) (acts : List Act) (s : σ) :
    Along step C acts s := by
  induction acts generalizing s with
  | nil => trivial
  | cons a acts ih => exact ⟨h a s, fun _ s' _ => ih s'⟩

theorem along_of_forall_mem {C : Act → Prop} {acts : List Act} (h : ∀ a ∈ acts, C a) (s : σ) :
    Along step (fun a _ => C a) acts s := by
  induction acts generalizing s with
  | nil => trivial
  | cons a acts ih =>
    exact ⟨h a List.mem_cons_self,
      fun _ s' _ => ih (fun b hb => h b (List.mem_cons_of_mem a hb)) s'⟩

theorem along_and {C D : Act → σ → Prop} {acts : List Act} {s : σ} (hC : Along step C acts s)
    (hD : Along step D acts s) : Along step (fun a s => C a s ∧ D a s) acts s := by
  induction acts generalizing s with
  | nil => trivial
  | cons a acts ih =>
    exact ⟨⟨hC.1, hD.1⟩, fun out s' hstep => ih (hC.2 out s' hstep) (hD.2 out s' hstep)⟩

theorem run_invariant_of_along {C : Act → σ → Prop} {I : σ → Prop}
    (hI : ∀ a s out s', C a s → I s → step a s = some (out, s') → I s') {acts : List Act}
    {s s' : σ} {outs : List Out} (hC : Along step C acts s) (hs : I s)
    (h : run step acts s = some (outs, s')) : I s' := by
  induction acts generalizing s outs with
  | nil =>
    obtain ⟨-, rfl⟩ : [] = outs ∧ s = s' := by simpa using h
    exact hs
  | cons a acts ih =>
    obtain ⟨out, s₁, rest, hx, hrest, -⟩ := run_cons_eq_some h
    exact ih (hC.2 out s₁ hx) (hI a s out s₁ hC.1 hs hx) hrest

theorem run_invariant {I : σ → Prop}
    (hI : ∀ a s out s', I s → step a s = some (out, s') → I s') {acts : List Act}
    {s s' : σ} {outs : List Out} (hs : I s) (h : run step acts s = some (outs, s')) : I s' :=
  have hall : Along step (fun _ _ => True) acts s := along_of_forall (fun _ _ => trivial) acts s
  run_invariant_of_along (fun a s out s' _ => hI a s out s') hall hs h

/-- A run of actions none of which ever gets stuck does not get stuck. -/
theorem run_isSome_of_mem {acts : List Act} {s : σ}
    (h : ∀ a ∈ acts, ∀ s, ∃ out s', step a s = some (out, s')) :
    ∃ outs s', run step acts s = some (outs, s') := by
  induction acts generalizing s with
  | nil => exact ⟨[], s, rfl⟩
  | cons a acts ih =>
    obtain ⟨out, s₁, hstep⟩ := h a List.mem_cons_self s
    obtain ⟨outs, s', hrun⟩ := ih (s := s₁) fun b hb => h b (List.mem_cons_of_mem a hb)
    exact ⟨out :: outs, s', by rw [run_cons, hstep]; simp [hrun]⟩

/-- What every step of a fold keeps, the fold keeps. -/
theorem foldlM_invariant {f : σ → Act → Option σ} {I : σ → Prop}
    (hI : ∀ a s s', I s → f s a = some s' → I s') {acts : List Act} {s s' : σ} (hs : I s)
    (h : acts.foldlM f s = some s') : I s' := by
  induction acts generalizing s with
  | nil =>
    obtain rfl := Option.some.inj h
    exact hs
  | cons a acts ih =>
    rw [List.foldlM_cons] at h
    obtain ⟨s₁, hstep, h⟩ := Option.bind_eq_some_iff.mp h
    exact ih (hI a s s₁ hs hstep) h

/-- A fold whose steps collect something collects all of it, in order. -/
theorem foldlM_collects {β : Type*} {f : σ → Act → Option σ} {g : Act → List β}
    {I : σ → List β → Prop} {acts : List Act}
    (hstep : ∀ a ∈ acts, ∀ s found, I s found → ∃ s', f s a = some s' ∧ I s' (found ++ g a))
    {s : σ} {found : List β} (h : I s found) :
    ∃ s', acts.foldlM f s = some s' ∧ I s' (found ++ acts.flatMap g) := by
  induction acts generalizing s found with
  | nil => exact ⟨s, rfl, by rwa [List.flatMap_nil, List.append_nil]⟩
  | cons a acts ih =>
    obtain ⟨s₁, hfirst, h₁⟩ := hstep a List.mem_cons_self s found h
    obtain ⟨s', hrest, h'⟩ := ih (fun b hb => hstep b (List.mem_cons_of_mem a hb)) h₁
    refine ⟨s', ?_, ?_⟩
    · rw [List.foldlM_cons, hfirst]
      exact hrest
    · rwa [List.flatMap_cons, ← List.append_assoc]

/-! ### Reachability -/

/-- Some run of actions with the property `P` leads from `s` to `s'`. -/
def Leads (step : Act → σ → Option (Out × σ)) (P : Act → Prop) (s s' : σ) : Prop :=
  ∃ acts outs, (∀ a ∈ acts, P a) ∧ run step acts s = some (outs, s')

section Leads

variable {P : Act → Prop} {s s₁ s' : σ}

theorem Leads.refl (s : σ) : Leads step P s s := ⟨[], [], fun _ h => (by cases h), rfl⟩

theorem Leads.single {a : Act} {out : Out} (ha : P a) (h : step a s = some (out, s')) :
    Leads step P s s' := by
  refine ⟨[a], [out], fun b hb => ?_, by rw [run_cons, h]; rfl⟩
  obtain rfl := List.mem_singleton.mp hb
  exact ha

theorem Leads.trans (h : Leads step P s s₁) (h' : Leads step P s₁ s') : Leads step P s s' := by
  obtain ⟨acts, outs, hP, hrun⟩ := h
  obtain ⟨acts', outs', hP', hrun'⟩ := h'
  refine ⟨acts ++ acts', outs ++ outs', fun a ha => ?_, run_append hrun hrun'⟩
  exact (List.mem_append.mp ha).elim (hP a) (hP' a)

theorem Leads.mono {Q : Act → Prop} (hPQ : ∀ a, P a → Q a) (h : Leads step P s s') :
    Leads step Q s s' := by
  obtain ⟨acts, outs, hP, hrun⟩ := h
  exact ⟨acts, outs, fun a ha => hPQ a (hP a ha), hrun⟩

/-- What every action with the property keeps, the states they lead to have. -/
theorem Leads.invariant {I : σ → Prop}
    (hI : ∀ a s out s', P a → I s → step a s = some (out, s') → I s') (hs : I s)
    (h : Leads step P s s') : I s' := by
  obtain ⟨acts, outs, hP, hrun⟩ := h
  exact run_invariant_of_along (C := fun a _ => P a) hI (along_of_forall_mem hP s) hs hrun

end Leads

/-! ### Traces -/

section Traces

variable {ε : Type*}

/-- A step with what an observer sees of it, in place of its output. -/
def observed (step : Act → σ → Option (Out × σ)) (see : Act → σ → Out → List ε) (a : Act) (s : σ) :
    Option (List ε × σ) :=
  (step a s).map fun x => (see a s x.1, x.2)

theorem run_observed (see : Act → σ → Out → List ε) {acts : List Act} {s s' : σ} {outs : List Out}
    (h : run step acts s = some (outs, s')) :
    ∃ seen, run (observed step see) acts s = some (seen, s') := by
  induction acts generalizing s outs with
  | nil =>
    obtain ⟨-, rfl⟩ := Prod.mk.inj (Option.some.inj h)
    exact ⟨[], rfl⟩
  | cons a acts ih =>
    obtain ⟨out, s₁, rest, hstep, hrest, -⟩ := run_cons_eq_some h
    obtain ⟨seen, hseen⟩ := ih hrest
    refine ⟨see a s out :: seen, ?_⟩
    rw [run_cons, observed, hstep, Option.map_some, Option.bind_some, hseen]
    rfl

/-- Some run of actions with the property `P` leads from `s` to `s'`, and the trace is all that is
seen of it. -/
def Traces (step : Act → σ → Option (List ε × σ)) (P : Act → Prop) (s : σ) (trace : List ε)
    (s' : σ) : Prop :=
  ∃ acts seen, (∀ a ∈ acts, P a) ∧ run step acts s = some (seen, s') ∧ seen.flatten = trace

variable {step : Act → σ → Option (List ε × σ)} {P : Act → Prop} {s s₁ s' : σ}
  {trace trace' : List ε}

theorem Traces.refl (s : σ) : Traces step P s [] s := ⟨[], [], fun _ h => (by cases h), rfl, rfl⟩

theorem Traces.single {a : Act} (ha : P a) (h : step a s = some (trace, s')) :
    Traces step P s trace s' := by
  refine ⟨[a], [trace], fun b hb => ?_, by rw [run_cons, h]; rfl, List.append_nil trace⟩
  obtain rfl := List.mem_singleton.mp hb
  exact ha

theorem Traces.trans (h : Traces step P s trace s₁) (h' : Traces step P s₁ trace' s') :
    Traces step P s (trace ++ trace') s' := by
  obtain ⟨acts, seen, hP, hrun, rfl⟩ := h
  obtain ⟨acts', seen', hP', hrun', rfl⟩ := h'
  refine ⟨acts ++ acts', seen ++ seen', fun a ha => ?_, run_append hrun hrun', List.flatten_append⟩
  exact (List.mem_append.mp ha).elim (hP a) (hP' a)

/-- If every step of one machine is a run of another, seen as the same trace, then so is every
run. -/
theorem Traces.of_run {τ Act' : Type*} {step' : Act' → τ → Option (List ε × τ)} {f : τ → σ}
    (hstep : ∀ a t seen t', step' a t = some (seen, t') → Traces step P (f t) seen (f t'))
    {acts : List Act'} {t t' : τ} {seen : List (List ε)}
    (h : run step' acts t = some (seen, t')) : Traces step P (f t) seen.flatten (f t') := by
  induction acts generalizing t seen with
  | nil =>
    obtain ⟨rfl, rfl⟩ := Prod.mk.inj (Option.some.inj h)
    exact Traces.refl _
  | cons a acts ih =>
    obtain ⟨out, t₁, rest, hfirst, hrest, rfl⟩ := run_cons_eq_some h
    exact (hstep a t out t₁ hfirst).trans (ih hrest)

end Traces

/-- `D` holds at every step of a run up to the first one where `stop` does, which is included. -/
def AlongUntil (step : Act → σ → Option (Out × σ)) (stop D : Act → σ → Prop) :
    List Act → σ → Prop
  | [], _ => True
  | a :: acts, s => D a s ∧
    (¬ stop a s → ∀ out s', step a s = some (out, s') → AlongUntil step stop D acts s')

/-- An invariant that every step under `C` keeps, other than the last, and that implies `D`. -/
theorem alongUntil_of_along {stop C D : Act → σ → Prop} {I : σ → Prop}
    (hD : ∀ a s, C a s → I s → D a s)
    (hI : ∀ a s out s', C a s → ¬ stop a s → I s → step a s = some (out, s') → I s')
    {acts : List Act} {s : σ} (hC : Along step C acts s) (hs : I s) :
    AlongUntil step stop D acts s := by
  induction acts generalizing s with
  | nil => trivial
  | cons a acts ih =>
    exact ⟨hD a s hC.1 hs, fun hstop out s' hstep =>
      ih (hC.2 out s' hstep) (hI a s out s' hC.1 hstop hs hstep)⟩

/-- `R` holds of every step of a run: of the action, the actions that follow, and the states before
and after it. -/
def StepsAlong (step : Act → σ → Option (Out × σ)) (R : Act → List Act → σ → σ → Prop) :
    List Act → σ → Prop
  | [], _ => True
  | a :: acts, s => ∀ out s', step a s = some (out, s') →
    R a acts s s' ∧ StepsAlong step R acts s'

/-- What holds of every step there is, holds of every step of a run. -/
theorem stepsAlong_of_forall {R : Act → List Act → σ → σ → Prop}
    (hR : ∀ a acts s out s', step a s = some (out, s') → R a acts s s') (acts : List Act) (s : σ) :
    StepsAlong step R acts s := by
  induction acts generalizing s with
  | nil => trivial
  | cons a acts ih => exact fun out s' hstep => ⟨hR a acts s out s' hstep, ih s'⟩

/-- Relations that agree where an invariant of the state and the actions to come holds. -/
theorem stepsAlong_iff {R R' : Act → List Act → σ → σ → Prop} {J : List Act → σ → Prop}
    (hJ : ∀ a acts s out s', J (a :: acts) s → step a s = some (out, s') → J acts s')
    (hR : ∀ a acts s out s', J (a :: acts) s → step a s = some (out, s') →
      (R a acts s s' ↔ R' a acts s s')) {acts : List Act} {s : σ} (hs : J acts s) :
    StepsAlong step R acts s ↔ StepsAlong step R' acts s := by
  induction acts generalizing s with
  | nil => exact Iff.rfl
  | cons a acts ih =>
    refine forall_congr' fun out => forall_congr' fun s' => forall_congr' fun hstep => ?_
    exact and_congr (hR a acts s out s' hs hstep) (ih (hJ a acts s out s' hs hstep))

/-- What holds of every step of a run, holds of every step of the rest of it. -/
theorem StepsAlong.of_append {R : Act → List Act → σ → σ → Prop} {acts acts' : List Act} {s s' : σ}
    {outs : List Out} (h : StepsAlong step R (acts ++ acts') s)
    (hrun : run step acts s = some (outs, s')) : StepsAlong step R acts' s' := by
  induction acts generalizing s outs with
  | nil =>
    obtain ⟨-, rfl⟩ := Prod.mk.inj (Option.some.inj hrun)
    exact h
  | cons a acts ih =>
    obtain ⟨out, s₁, rest, hstep, hrest, -⟩ := run_cons_eq_some hrun
    exact ih (h out s₁ hstep).2 hrest

/-! ### Safety -/

/-- No action gets stuck, and `Good` holds in every state of the run, the first and the last
included. -/
def Safe (step : Act → σ → Option (Out × σ)) (Good : σ → Prop) : List Act → σ → Prop
  | [], s => Good s
  | a :: acts, s => Good s ∧ ∃ out s', step a s = some (out, s') ∧ Safe step Good acts s'

theorem Safe.good {Good : σ → Prop} {acts : List Act} {s : σ} (h : Safe step Good acts s) :
    Good s := by
  cases acts with
  | nil => exact h
  | cons a acts => exact h.1

/-- If `C` keeps an invariant that implies `Good`, and a step without `C` gets stuck or leaves
`Good` at once, then a run is safe exactly when `C` holds along it. -/
theorem safe_iff_along {C : Act → σ → Prop} {I Good : σ → Prop} (hgood : ∀ s, I s → Good s)
    (hkeep : ∀ a s, I s → C a s → ∃ out s', step a s = some (out, s') ∧ I s')
    (hbreak : ∀ a s out s', I s → ¬ C a s → step a s = some (out, s') → ¬ Good s')
    {acts : List Act} {s : σ} (hs : I s) : Safe step Good acts s ↔ Along step C acts s := by
  induction acts generalizing s with
  | nil => exact iff_of_true (hgood s hs) trivial
  | cons a acts ih =>
    constructor
    · rintro ⟨-, out, s₁, hx, hrest⟩
      have hC : C a s := by
        by_contra hC
        exact hbreak a s out s₁ hs hC hx hrest.good
      obtain ⟨out', s₂, hy, hI⟩ := hkeep a s hs hC
      obtain ⟨rfl, rfl⟩ : out = out' ∧ s₁ = s₂ := by simpa [hx] using hy
      refine ⟨hC, fun out' s₂ hy => ?_⟩
      obtain ⟨-, rfl⟩ : out = out' ∧ s₁ = s₂ := by simpa [hx] using hy
      exact (ih hI).mp hrest
    · rintro ⟨hC, hrest⟩
      obtain ⟨out, s₁, hx, hI⟩ := hkeep a s hs hC
      exact ⟨hgood s hs, out, s₁, hx, (ih hI).mpr (hrest out s₁ hx)⟩

/-! ### Agreement of outcomes -/

/-- Two outcomes agree up to `R` when both are failures, or both return the same result in states
related by `R`. -/
abbrev AgreeUpTo {α τ : Type*} (R : σ → τ → Prop) : Option (α × σ) → Option (α × τ) → Prop :=
  Option.Rel fun x y => x.1 = y.1 ∧ R x.2 y.2

/-- If the second of two outcomes that agree is no failure, neither is the first. -/
theorem agree_eq_some {α τ : Type*} {R : σ → τ → Prop} {x : Option (α × σ)} {a : α} {t : τ}
    (h : AgreeUpTo R x (some (a, t))) : ∃ s, x = some (a, s) ∧ R s t := by
  cases h with
  | @some x _ hx =>
    obtain ⟨b, s⟩ := x
    obtain ⟨rfl, hst⟩ := hx
    exact ⟨s, rfl, hst⟩

/-- If the first of two outcomes that agree is no failure, neither is the second. -/
theorem agree_some_left {α τ : Type*} {R : σ → τ → Prop} {y : Option (α × τ)} {a : α} {s : σ}
    (h : AgreeUpTo R (some (a, s)) y) : ∃ t, y = some (a, t) ∧ R s t := by
  cases h with
  | @some _ y hy =>
    obtain ⟨b, t⟩ := y
    obtain ⟨rfl, hst⟩ := hy
    exact ⟨t, rfl, hst⟩

/-- If the first of two outcomes that agree is a failure, so is the second. -/
theorem agree_none_left {α τ : Type*} {R : σ → τ → Prop} {y : Option (α × τ)}
    (h : AgreeUpTo R none y) : y = none := by
  cases h
  rfl

theorem agree_mono {α τ : Type*} {R S : σ → τ → Prop} {x : Option (α × σ)} {y : Option (α × τ)}
    (h : AgreeUpTo R x y) (hRS : ∀ s t, R s t → S s t) : AgreeUpTo S x y := by
  cases h with
  | none => exact Option.Rel.none
  | some hxy => exact Option.Rel.some ⟨hxy.1, hRS _ _ hxy.2⟩

theorem rel_isSome {α β : Type*} {R : α → β → Prop} {x : Option α} {y : Option β}
    (h : Option.Rel R x y) : y.isSome = x.isSome := by
  cases h <;> rfl

theorem rel_bind {α β γ δ : Type*} {R : α → β → Prop} {S : γ → δ → Prop} {x : Option α}
    {y : Option β} {f : α → Option γ} {g : β → Option δ} (h : Option.Rel R x y)
    (hfg : ∀ a b, R a b → Option.Rel S (f a) (g b)) : Option.Rel S (x.bind f) (y.bind g) := by
  cases h with
  | none => exact Option.Rel.none
  | some hab => exact hfg _ _ hab

theorem rel_map {α β γ δ : Type*} {R : α → β → Prop} {S : γ → δ → Prop} {x : Option α}
    {y : Option β} {f : α → γ} {g : β → δ} (h : Option.Rel R x y)
    (hfg : ∀ a b, R a b → S (f a) (g b)) : Option.Rel S (x.map f) (y.map g) := by
  cases h with
  | none => exact Option.Rel.none
  | some hab => exact Option.Rel.some (hfg _ _ hab)

/-- The same outcome goes on alike. -/
theorem rel_bind_same {α γ δ : Type*} {S : γ → δ → Prop} (x : Option α) {f : α → Option γ}
    {g : α → Option δ} (hfg : ∀ a, Option.Rel S (f a) (g a)) :
    Option.Rel S (x.bind f) (x.bind g) := by
  cases x with
  | none => exact Option.Rel.none
  | some a => exact hfg a

/-- Outcomes that agree go on to agree. -/
theorem agree_bind_of_eq {α γ δ τ : Type*} {R : σ → τ → Prop} {S : γ → δ → Prop}
    {x : Option (α × σ)} {y : Option (α × τ)} {f : α × σ → Option γ} {g : α × τ → Option δ}
    (h : AgreeUpTo R x y)
    (hfg : ∀ a s t, x = some (a, s) → R s t → Option.Rel S (f (a, s)) (g (a, t))) :
    Option.Rel S (x.bind f) (y.bind g) := by
  cases h with
  | none => exact Option.Rel.none
  | @some x y hxy =>
    obtain ⟨a, s⟩ := x
    obtain ⟨b, t⟩ := y
    obtain ⟨rfl, hst⟩ := hxy
    exact hfg a s t rfl hst

theorem agree_bind {α γ δ τ : Type*} {R : σ → τ → Prop} {S : γ → δ → Prop} {x : Option (α × σ)}
    {y : Option (α × τ)} {f : α × σ → Option γ} {g : α × τ → Option δ} (h : AgreeUpTo R x y)
    (hfg : ∀ a s t, R s t → Option.Rel S (f (a, s)) (g (a, t))) :
    Option.Rel S (x.bind f) (y.bind g) :=
  agree_bind_of_eq h fun a s t _ => hfg a s t

/-- Steps that agree up to `R` fold alike. -/
theorem rel_foldlM {τ : Type*} {R : σ → τ → Prop} {f : σ → Act → Option σ} {g : τ → Act → Option τ}
    (hfg : ∀ a s t, R s t → Option.Rel R (f s a) (g t a)) {acts : List Act} {s : σ} {t : τ}
    (h : R s t) : Option.Rel R (acts.foldlM f s) (acts.foldlM g t) := by
  induction acts generalizing s t with
  | nil => exact Option.Rel.some h
  | cons a acts ih =>
    rw [List.foldlM_cons, List.foldlM_cons]
    exact rel_bind (hfg a s t h) fun s' t' h' => ih h'

/-- **Machines whose steps agree up to `R` run alike.** -/
theorem run_agree {τ : Type*} {R : σ → τ → Prop} {step' : Act → τ → Option (Out × τ)}
    (hstep : ∀ a s t, R s t → AgreeUpTo R (step a s) (step' a t)) {acts : List Act} {s : σ} {t : τ}
    (h : R s t) : AgreeUpTo R (run step acts s) (run step' acts t) := by
  induction acts generalizing s t with
  | nil => exact Option.Rel.some ⟨rfl, h⟩
  | cons a acts ih =>
    refine agree_bind (hstep a s t h) fun out s' t' h' => ?_
    exact rel_map (ih h') fun x y hxy => ⟨congrArg (out :: ·) hxy.1, hxy.2⟩

/-! ### Refinement of a total machine -/

/-- The run of a machine that never gets stuck. -/
def Spec.run {A : Type*} (step : Act → A → Out × A) : List Act → A → List Out × A
  | [], m => ([], m)
  | a :: acts, m =>
    ((step a m).1 :: (Spec.run step acts (step a m).2).1, (Spec.run step acts (step a m).2).2)

/-- If one step of the concrete machine, from a state that satisfies `I`, is the abstract step
seen through `abs`, then so is every run. -/
theorem run_refines {A : Type*} {spec : Act → A → Out × A} {abs : σ → A} {I : σ → Prop}
    {ok : Act → Prop}
    (hstep : ∀ a s, ok a → I s →
      ∃ s', step a s = some ((spec a (abs s)).1, s') ∧ I s' ∧ abs s' = (spec a (abs s)).2)
    {acts : List Act} (hok : ∀ a ∈ acts, ok a) {s : σ} (hs : I s) :
    ∃ s', run step acts s = some ((Spec.run spec acts (abs s)).1, s') ∧ I s' ∧
      abs s' = (Spec.run spec acts (abs s)).2 := by
  induction acts generalizing s with
  | nil => exact ⟨s, rfl, hs, rfl⟩
  | cons a acts ih =>
    obtain ⟨s₁, hs₁, hI₁, habs₁⟩ := hstep a s (hok a List.mem_cons_self) hs
    obtain ⟨s₂, hs₂, hI₂, habs₂⟩ := ih (fun b hb => hok b (List.mem_cons_of_mem a hb)) hI₁
    rw [habs₁] at hs₂ habs₂
    exact ⟨s₂, by rw [run_cons, hs₁]; simp [hs₂, Spec.run], hI₂, habs₂⟩

end Transition
