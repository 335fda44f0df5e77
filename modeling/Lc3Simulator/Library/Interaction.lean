import Lc3Simulator.Library.Transition
import Mathlib.Order.Basic

/-!
# Programs that talk to an environment

A program whose only effect is to send requests to its environment and wait for the responses is
a tree: a leaf returns, a node sends one request and continues according to the response. Two
such programs are equal exactly when they send the same requests, in the same order, whatever the
environment answers, and return the same results.

An environment is a *handler*: a state, and for each request a response and a next state. A
handler may also fail to respond, which stops the run.

## Main definitions

* `Prog` — request trees, with their monad structure
* `Handler`, `Prog.run` — environments, and running a program in one
* `Responder`, `Prog.eval` — environments that respond to everything, and running a program in one
* `Handler.traced` — the same environment, writing down every request with its response

## Main results

* `Prog.run_bind` — running a sequence is running its parts in sequence
* `Prog.run_invariant` — what every request keeps, every program keeps
* `Prog.Returns.of_run` — what a program returns in any environment
* `Prog.run_rel` — environments that respond alike run every program alike
* `Prog.run_eval`, `Prog.eval_of_run` — an environment, and one that responds to everything
-/

namespace Interaction

open Transition

universe u

/-- A program over the requests `Req`, where request `q` is answered by a `Resp q`. -/
inductive Prog (Req : Type u) (Resp : Req → Type u) (α : Type u) : Type u
  | ret (a : α)
  | ask (q : Req) (next : Resp q → Prog Req Resp α)

/-- An environment with state `σ`. `none` means the environment does not survive the request. -/
abbrev Handler (Req : Type u) (Resp : Req → Type u) (σ : Type u) :=
  (q : Req) → σ → Option (Resp q × σ)

namespace Prog

variable {Req : Type u} {Resp : Req → Type u} {α β : Type u}

/-- Sequencing: graft the second program onto every leaf of the first. -/
def bind : Prog Req Resp α → (α → Prog Req Resp β) → Prog Req Resp β
  | ret a, f => f a
  | ask q next, f => ask q fun r => (next r).bind f

instance : Monad (Prog Req Resp) where
  pure := ret
  bind := bind

@[simp] theorem ret_bind (a : α) (f : α → Prog Req Resp β) : ret a >>= f = f a := rfl

@[simp] theorem ask_bind (q : Req) (next : Resp q → Prog Req Resp α) (f : α → Prog Req Resp β) :
    ask q next >>= f = ask q fun r => next r >>= f := rfl

theorem bind_ret (p : Prog Req Resp α) : p >>= ret = p := by
  induction p with
  | ret a => rfl
  | ask q next ih => rw [ask_bind]; exact congrArg _ (funext ih)

theorem bind_bind {γ : Type u} (p : Prog Req Resp α) (f : α → Prog Req Resp β)
    (g : β → Prog Req Resp γ) : p >>= f >>= g = p >>= fun a => f a >>= g := by
  induction p with
  | ret a => rfl
  | ask q next ih => rw [ask_bind, ask_bind, ask_bind]; exact congrArg _ (funext ih)

instance : LawfulMonad (Prog Req Resp) :=
  LawfulMonad.mk' _ (fun p => bind_ret p) (fun _ _ => rfl) fun p f g => bind_bind p f g

@[simp] theorem pure_eq_ret (a : α) : (pure a : Prog Req Resp α) = ret a := rfl

/-- Send one request and return its response. -/
def send (q : Req) : Prog Req Resp (Resp q) := ask q ret

/-! ### Running in an environment -/

section Run

variable {σ : Type u}

/-- Run a program in the environment `h`, from the state `s`. -/
def run (h : Handler Req Resp σ) : Prog Req Resp α → σ → Option (α × σ)
  | ret a, s => some (a, s)
  | ask q next, s => (h q s).bind fun x => (next x.1).run h x.2

variable {h : Handler Req Resp σ}

@[simp] theorem run_ret (a : α) (s : σ) : (ret a : Prog Req Resp α).run h s = some (a, s) := rfl

@[simp] theorem run_ask (q : Req) (next : Resp q → Prog Req Resp α) (s : σ) :
    (ask q next).run h s = (h q s).bind fun x => (next x.1).run h x.2 := rfl

@[simp] theorem run_bind (p : Prog Req Resp α) (f : α → Prog Req Resp β) (s : σ) :
    (p >>= f).run h s = (p.run h s).bind fun x => (f x.1).run h x.2 := by
  induction p generalizing s with
  | ret a => rfl
  | ask q next ih =>
    rw [ask_bind, run_ask, run_ask, Option.bind_assoc]
    exact congrArg _ (funext fun x => ih x.1 x.2)

end Run

/-! ### What runs keep -/

section Rules

variable {σ τ : Type u} {h : Handler Req Resp σ} {g : Handler Req Resp τ}

/-- A property of the environment's state that every answered request keeps is kept by every
program. -/
theorem run_invariant {I : σ → Prop} (hI : ∀ q s x, I s → h q s = some x → I x.2)
    (p : Prog Req Resp α) {s : σ} {x : α × σ} (hs : I s) (hp : p.run h s = some x) : I x.2 := by
  induction p generalizing s with
  | ret a =>
    obtain rfl : (a, s) = x := by simpa using hp
    exact hs
  | ask q next ih =>
    rw [run_ask] at hp
    obtain ⟨y, hy, hp⟩ := Option.bind_eq_some_iff.mp hp
    exact ih y.1 (hI q s y hs hy) hp

/-- Whatever a program is answered, what it returns has a property. -/
def Returns (P : α → Prop) : Prog Req Resp α → Prop
  | ret a => P a
  | ask _ next => ∀ r, (next r).Returns P

@[simp] theorem returns_ret {P : α → Prop} {a : α} :
    (ret a : Prog Req Resp α).Returns P ↔ P a := Iff.rfl

@[simp] theorem returns_ask {P : α → Prop} {q : Req} {next : Resp q → Prog Req Resp α} :
    (ask q next).Returns P ↔ ∀ r, (next r).Returns P := Iff.rfl

theorem Returns.of_run {P : α → Prop} {p : Prog Req Resp α} {s : σ} {x : α × σ}
    (hreturns : p.Returns P) (hp : p.run h s = some x) : P x.1 := by
  induction p generalizing s with
  | ret a =>
    obtain rfl := Option.some.inj hp
    exact hreturns
  | ask q next ih =>
    rw [run_ask] at hp
    obtain ⟨y, -, hp⟩ := Option.bind_eq_some_iff.mp hp
    exact ih y.1 (hreturns y.1) hp

/-- Environments that answer every request alike, up to `R`, run every program alike. -/
theorem run_rel {R : σ → τ → Prop}
    (hR : ∀ q s t, R s t → AgreeUpTo R (h q s) (g q t)) (p : Prog Req Resp α) {s : σ} {t : τ}
    (hst : R s t) : AgreeUpTo R (p.run h s) (p.run g t) := by
  induction p generalizing s t with
  | ret a => exact Option.Rel.some ⟨rfl, hst⟩
  | ask q next ih =>
    rw [run_ask, run_ask]
    exact agree_bind (hR q s t hst) fun r s' t' h' => ih r h'

end Rules

end Prog

/-! ### Environments that respond to everything -/

/-- An environment with state `τ` that responds to every request. -/
abbrev Responder (Req : Type u) (Resp : Req → Type u) (τ : Type u) := (q : Req) → τ → Resp q × τ

namespace Prog

variable {Req : Type u} {Resp : Req → Type u} {α β σ τ : Type u}

/-- Run a program in the environment `g`, from the state `t`. -/
def eval (g : Responder Req Resp τ) : Prog Req Resp α → τ → α × τ
  | ret a, t => (a, t)
  | ask q next, t => (next (g q t).1).eval g (g q t).2

variable {g : Responder Req Resp τ}

@[simp] theorem eval_ret (a : α) (t : τ) : (ret a : Prog Req Resp α).eval g t = (a, t) := rfl

@[simp] theorem eval_ask (q : Req) (next : Resp q → Prog Req Resp α) (t : τ) :
    (ask q next).eval g t = (next (g q t).1).eval g (g q t).2 := rfl

@[simp] theorem eval_bind (p : Prog Req Resp α) (f : α → Prog Req Resp β) (t : τ) :
    (p >>= f).eval g t = (f (p.eval g t).1).eval g (p.eval g t).2 := by
  induction p generalizing t with
  | ret a => rfl
  | ask q next ih => exact ih (g q t).1 (g q t).2

/-- **An environment that responds as `g` does**, up to `R`, never fails, and runs every program as
`g` does. -/
theorem run_eval {h : Handler Req Resp σ} {R : σ → τ → Prop}
    (hR : ∀ q s t, R s t → ∃ s', h q s = some ((g q t).1, s') ∧ R s' (g q t).2)
    (p : Prog Req Resp α) {s : σ} {t : τ} (hst : R s t) :
    ∃ s', p.run h s = some ((p.eval g t).1, s') ∧ R s' (p.eval g t).2 := by
  induction p generalizing s t with
  | ret a => exact ⟨s, rfl, hst⟩
  | ask q next ih =>
    obtain ⟨s₁, hq, hs₁⟩ := hR q s t hst
    obtain ⟨s', hrun, hs'⟩ := ih (g q t).1 hs₁
    exact ⟨s', by rw [run_ask, hq]; exact hrun, hs'⟩

/-- Where an environment responds, `g` responds alike: then what a program does in that environment,
it does in `g`. -/
theorem eval_of_run {h : Handler Req Resp σ} {R : σ → τ → Prop}
    (hR : ∀ q s x t, R s t → h q s = some x → (g q t).1 = x.1 ∧ R x.2 (g q t).2)
    (p : Prog Req Resp α) {s : σ} {t : τ} {x : α × σ} (hst : R s t) (hp : p.run h s = some x) :
    (p.eval g t).1 = x.1 ∧ R x.2 (p.eval g t).2 := by
  induction p generalizing s t with
  | ret a =>
    obtain rfl := Option.some.inj hp
    exact ⟨rfl, hst⟩
  | ask q next ih =>
    rw [run_ask] at hp
    obtain ⟨y, hy, hp⟩ := Option.bind_eq_some_iff.mp hp
    obtain ⟨hresp, hy'⟩ := hR q s y t hst hy
    rw [eval_ask, hresp]
    exact ih y.1 hy' hp

end Prog

/-! ### Traces -/

section Traced

variable {Req : Type u} {Resp : Req → Type u} {α σ : Type u}

/-- The environment `h`, writing down each request it answers with the response it gives. -/
def Handler.traced (h : Handler Req Resp σ) : Handler Req Resp (σ × List (Σ q, Resp q)) :=
  fun q s => (h q s.1).map fun x => (x.1, x.2, s.2 ++ [⟨q, x.1⟩])

end Traced

end Interaction
