import Lc3Simulator.Arbitration
import Mathlib.Data.Finset.Max
import Mathlib.Data.Multiset.OrderedMonoid
import Mathlib.Tactic.Abel

/-!
# No interrupt is lost or delivered twice

An alert enters a request into the controller, unless its vector is pending. From then on the
request has to be delivered once, and to be pending until then. Over a run this is an equation of
two collections: the requests that were entered are those that were delivered and those that are
pending at the end.

The equation fails if a device raises a request during the delivery of another one that it
outranks: then the first one is dropped although nobody has delivered it, and the other one is still
pending although it was delivered. It can not come right again later, since every such step puts a
smaller request in the place of a greater one.

## Main definitions

* `Requests.entered` — the requests that some alerts enter
* `requestsEntered`, `requestsDelivered` — the requests that a run enters and delivers
* `DeliversGreatest` — in no step of a run is a request outranked while it is delivered

## Main results

* `simEvent_requests` — one event
* `run_requests` — a run, with the requests that were put in the place of others
* `interrupts_conserved_iff` — when the equation holds
-/

namespace Lc3Simulator

open Interaction Transition

/-- Pairs that grow and have the same first as second parts: there are none, since the second part
of one with the greatest first part would be greater still. -/
theorem eq_zero_of_map_eq_map {α : Type*} [LinearOrder α] {pairs : Multiset (α × α)}
    (hlt : ∀ p ∈ pairs, p.1 < p.2) (h : pairs.map Prod.fst = pairs.map Prod.snd) : pairs = 0 := by
  by_contra hne
  obtain ⟨p, hp⟩ := Multiset.exists_mem_of_ne_zero hne
  obtain ⟨top, htop, hmax⟩ := Finset.exists_max_image pairs.toFinset Prod.fst
    ⟨p, Multiset.mem_toFinset.mpr hp⟩
  have hmem := Multiset.mem_toFinset.mp htop
  have hsecond : top.2 ∈ pairs.map Prod.fst := by
    rw [h]
    exact Multiset.mem_map_of_mem _ hmem
  obtain ⟨q, hq, hqtop⟩ := Multiset.mem_map.mp hsecond
  have hle := hmax q (Multiset.mem_toFinset.mpr hq)
  rw [hqtop] at hle
  exact absurd (hlt top hmem) (not_lt.mpr hle)

/-! ### The controller -/

namespace Requests

/-- The request that an alert asks for. -/
def key (request : Byte × Byte) : ℕ ×ₗ ℕ := requestKey request.2.toNat request.1.toNat

/-- The requests that some alerts enter: those whose vectors are not pending at the time. -/
def entered : Requests → List (Byte × Byte) → Multiset (ℕ ×ₗ ℕ)
  | _, [] => 0
  | s, request :: alerts =>
    let rest := entered (s.alert request.1.toNat request.2.toNat) alerts
    if s.Has request.1.toNat then rest else key request ::ₘ rest

/-- What is pending after some alerts. -/
theorem val_alerts (s : Requests) (alerts : List (Byte × Byte)) :
    (s.alerts alerts).val = s.val + s.entered alerts := by
  induction alerts generalizing s with
  | nil => exact (add_zero _).symm
  | cons request alerts ih =>
    have hrest : (s.alerts (request :: alerts)).val =
        (s.alert request.1.toNat request.2.toNat).val +
          (s.alert request.1.toNat request.2.toNat).entered alerts := ih _
    rw [hrest, entered, alert]
    by_cases hhas : s.Has request.1.toNat
    · rw [if_pos hhas, if_pos hhas]
    · have hfresh : requestKey request.2.toNat request.1.toNat ∉ s := fun hmem =>
        hhas ⟨_, hmem, rfl⟩
      rw [if_neg hhas, if_neg hhas, Finset.insert_val_of_notMem hfresh, Multiset.cons_add,
        Multiset.add_cons, key]

/-- Taking the greatest request. -/
theorem val_take {s : Requests} {r : ℕ ×ₗ ℕ} (h : s.greatest = (r : WithBot (ℕ ×ₗ ℕ))) :
    s.val = r ::ₘ s.take.val := by
  have htake : s.take = s.erase r := by
    ext r'
    rw [take, h, Finset.mem_filter, Finset.mem_erase, ne_eq, WithBot.coe_inj, and_comm]
  rw [htake, Finset.erase_val, Multiset.cons_erase (mem_of_greatest_eq h)]

end Requests

/-! ### Runs -/

section Ledger

variable {ω ι : Type} (env : Env ω ι)

/-- The requests that a run enters. -/
def requestsEntered : List SimEvent → Simulator ω ι → Multiset (ℕ ×ₗ ℕ)
  | [], _ => 0
  | e :: events, sim => (pending sim.machine.interCont).entered (eventAlerts env e sim) +
    match simEvent env e sim with
    | none => 0
    | some x => requestsEntered events x.2

/-- The requests that a run delivers. -/
def requestsDelivered : List SimEvent → Simulator ω ι → Multiset (ℕ ×ₗ ℕ)
  | [], _ => 0
  | e :: events, sim => ((requestDelivered sim e).elim 0 fun request => {Requests.key request}) +
    match simEvent env e sim with
    | none => 0
    | some x => requestsDelivered events x.2

/-- Whenever a request is delivered, no request that outranks it is raised meanwhile. -/
def DeliversGreatest : List SimEvent → Simulator ω ι → Prop :=
  StepsAlong (simEvent env) fun e _ sim _ => e = .between .checkInterrupts → NoneOutranks env sim

variable {env} {sim sim' : Simulator ω ι}

/-- A request is outranked while it is delivered, or it is the one that is taken. -/
theorem noneOutranks_iff {vec priority : Byte} {r : ℕ ×ₗ ℕ}
    (haccepted : accepted sim = some (vec, priority))
    (hgreatest : ((pending sim.machine.interCont).alerts
      (eventAlerts env (.between .checkInterrupts) sim)).greatest = (r : WithBot (ℕ ×ₗ ℕ))) :
    NoneOutranks env sim ↔ r ≤ Requests.key (vec, priority) := by
  rw [eventAlerts_of_accepted haccepted] at hgreatest
  constructor
  · exact fun hnone => hnone vec priority haccepted r (mem_of_greatest_eq hgreatest)
  · intro hle vec' priority' haccepted' r' hr'
    obtain ⟨rfl, rfl⟩ := Prod.mk.inj (Option.some.inj (haccepted'.symm.trans haccepted))
    exact (le_of_greatest_eq hgreatest hr').trans hle

/-- **One event.** If a request is put in the place of another one, the first is smaller. -/
theorem simEvent_requests {e : SimEvent} {out : Unit} (h : UsualQueue sim.machine.interCont)
    (husual : ∀ request ∈ eventAlerts env e sim, UsualAlert request)
    (hstep : simEvent env e sim = some (out, sim')) :
    ∃ pairs : Multiset ((ℕ ×ₗ ℕ) × (ℕ ×ₗ ℕ)), (∀ p ∈ pairs, p.1 < p.2) ∧
      (pairs = 0 ↔ (e = .between .checkInterrupts → NoneOutranks env sim)) ∧
      (pending sim.machine.interCont).val +
          (pending sim.machine.interCont).entered (eventAlerts env e sim) + pairs.map Prod.fst =
        ((requestDelivered sim e).elim 0 fun request => {Requests.key request}) +
          (pending sim'.machine.interCont).val + pairs.map Prod.snd := by
  obtain ⟨c, halerts, hc⟩ := simEvent_alerts hstep
  obtain ⟨c', halerts', hqueue, hpending⟩ := h.alerts husual
  obtain rfl := Option.some.inj (halerts.symm.trans halerts')
  have hall := Requests.val_alerts (pending sim.machine.interCont) (eventAlerts env e sim)
  rw [← hpending] at hall
  rcases hc with ⟨hnone, heq⟩ | ⟨hsome, htake⟩
  · refine ⟨0, by simp, iff_of_true rfl fun he vec priority haccepted => ?_, ?_⟩
    · subst he
      exact absurd (hnone.symm.trans haccepted) (by simp)
    · rw [hnone, heq, hall]
      simp
  · obtain ⟨⟨vec, priority⟩, hdelivered⟩ := Option.isSome_iff_exists.mp hsome
    obtain rfl : e = .between .checkInterrupts := by
      match e, hdelivered with
      | .between .checkInterrupts, _ => rfl
    have haccepted : accepted sim = some (vec, priority) := hdelivered
    obtain ⟨hnone, -⟩ | ⟨vec', priority', haccepted', -, hfirst⟩ := accepted_cases h.queue
    · exact absurd (hnone.symm.trans haccepted) (by simp)
    obtain ⟨rfl, rfl⟩ := Prod.mk.inj (Option.some.inj (haccepted'.symm.trans haccepted))
    have hmem : Requests.key (vec', priority') ∈ pending c := by
      rw [hpending]
      exact Requests.mem_alerts_of_mem (mem_of_greatest_eq hfirst)
    obtain ⟨r, hgreatest⟩ := Finset.max_of_mem hmem
    have hle : Requests.key (vec', priority') ≤ r := le_of_greatest_eq hgreatest hmem
    obtain ⟨c₁, htake₁, -, hrest⟩ := hqueue.take
    obtain rfl := Option.some.inj (htake₁.symm.trans htake)
    have hiff : NoneOutranks env sim ↔ r ≤ Requests.key (vec', priority') :=
      noneOutranks_iff haccepted (by rw [← hpending]; exact hgreatest)
    have hval : (pending c).val = r ::ₘ (pending sim'.machine.interCont).val := by
      rw [hrest]
      exact Requests.val_take hgreatest
    rw [hdelivered, ← hall, hval]
    rcases hle.eq_or_lt with rfl | hlt
    · exact ⟨0, by simp, iff_of_true rfl fun _ => hiff.mpr le_rfl, by simp⟩
    · refine ⟨{(Requests.key (vec', priority'), r)}, by simpa using hlt, ?_, ?_⟩
      · refine iff_of_false (Multiset.singleton_ne_zero _) fun hnone => ?_
        exact absurd (hiff.mp (hnone rfl)) (not_le.mpr hlt)
      · simp only [Option.elim_some, Multiset.map_singleton, ← Multiset.singleton_add]
        abel

/-- **A run**, with the requests that were put in the place of others. -/
theorem run_requests {events : List SimEvent} {outs : List Unit}
    (h : UsualQueue sim.machine.interCont) (husual : AlertsUsual env events sim)
    (hrun : run (simEvent env) events sim = some (outs, sim')) :
    ∃ pairs : Multiset ((ℕ ×ₗ ℕ) × (ℕ ×ₗ ℕ)), (∀ p ∈ pairs, p.1 < p.2) ∧
      (pairs = 0 ↔ DeliversGreatest env events sim) ∧
      (pending sim.machine.interCont).val + requestsEntered env events sim + pairs.map Prod.fst =
        requestsDelivered env events sim + (pending sim'.machine.interCont).val +
          pairs.map Prod.snd := by
  induction events generalizing sim outs with
  | nil =>
    obtain ⟨-, rfl⟩ := Prod.mk.inj (Option.some.inj hrun)
    exact ⟨0, by simp, iff_of_true rfl trivial, by simp [requestsEntered, requestsDelivered]⟩
  | cons e events ih =>
    obtain ⟨out, sim₁, outs', hstep, hrest, -⟩ := run_cons_eq_some hrun
    obtain ⟨hfirst, hlater⟩ := husual.cons hstep
    obtain ⟨pairs, hlt, hiff, hledger⟩ := simEvent_requests h hfirst hstep
    obtain ⟨pairs', hlt', hiff', hledger'⟩ :=
      ih (simEvent_usualQueue h hfirst hstep) hlater hrest
    refine ⟨pairs + pairs', fun p hp => ?_, ?_, ?_⟩
    · exact (Multiset.mem_add.mp hp).elim (hlt p) (hlt' p)
    · have hsteps : DeliversGreatest env (e :: events) sim ↔
          (e = .between .checkInterrupts → NoneOutranks env sim) ∧
            DeliversGreatest env events sim₁ := by
        constructor
        · exact fun hall => hall out sim₁ hstep
        · rintro hall out' sim₂ hstep'
          obtain ⟨-, rfl⟩ := Prod.mk.inj (Option.some.inj (hstep.symm.trans hstep'))
          exact hall
      rw [hsteps, ← hiff, ← hiff']
      exact add_eq_zero
    · -- the requests that are pending in between stand on both sides
      refine add_right_cancel (b := (pending sim₁.machine.interCont).val) ?_
      have hsum := congrArg₂ (· + ·) hledger hledger'
      simp only [requestsEntered, requestsDelivered, hstep, Multiset.map_add]
      refine Eq.trans ?_ (hsum.trans ?_)
      · abel
      · abel

/-- **No interrupt is lost or delivered twice** in a run of a new simulator, with usual alerts only,
exactly if no device raises a request that outranks the one being delivered: then the requests that
the alerts have entered are those that were delivered and those that are pending, each of them as
often. Those that were delivered are those that the CPU has executed. This is so for every run from
the start, so it is so at any time of a run. -/
theorem interrupts_conserved_iff {devices : ω} {deviceIo : ι} {events : List SimEvent}
    {outs : List Unit} (hnew : simulatorNew env devices deviceIo = some sim)
    (hrun : run (simEvent env) events sim = some (outs, sim'))
    (husual : AlertsUsual env events sim) :
    RunDelivers env events sim ∧
      (requestsEntered env events sim =
          requestsDelivered env events sim + (pending sim'.machine.interCont).val ↔
        DeliversGreatest env events sim) := by
  refine ⟨runDelivers env events sim, ?_⟩
  have hstart := (simulatorNew_eq_some hnew).2.2
  have hqueue : UsualQueue sim.machine.interCont := by
    rw [hstart]
    exact usualQueue_new
  have hempty : (pending sim.machine.interCont).val = 0 := by
    rw [hstart, pending_eq_empty rfl]
    rfl
  obtain ⟨pairs, hlt, hiff, hledger⟩ := run_requests hqueue husual hrun
  rw [hempty, zero_add] at hledger
  rw [← hiff]
  constructor
  · intro hconserved
    rw [hconserved] at hledger
    exact eq_zero_of_map_eq_map hlt (add_left_cancel hledger)
  · rintro rfl
    simpa using hledger

end Ledger

/-- The device that outranks its own request: the request that was delivered is pending still, and
the other one is gone. -/
theorem interrupts_conserved_iff_noisy :
    RunDelivers noisyEnv (noisyEvents ++ [.between .checkInterrupts]) noisyNew ∧
    (requestsEntered noisyEnv (noisyEvents ++ [.between .checkInterrupts]) noisyNew =
        requestsDelivered noisyEnv (noisyEvents ++ [.between .checkInterrupts]) noisyNew +
          (pending ((run (simEvent noisyEnv) (noisyEvents ++ [.between .checkInterrupts])
            noisyNew).get noisyAll_isSome).2.machine.interCont).val ↔
      DeliversGreatest noisyEnv (noisyEvents ++ [.between .checkInterrupts]) noisyNew) ∧
    requestsEntered noisyEnv (noisyEvents ++ [.between .checkInterrupts]) noisyNew =
      {requestKey 4 0x80, requestKey 7 0x90} ∧
    requestsDelivered noisyEnv (noisyEvents ++ [.between .checkInterrupts]) noisyNew =
      {requestKey 4 0x80} := by
  obtain ⟨hdelivers, hiff⟩ := interrupts_conserved_iff (Option.some_get noisyNew_isSome).symm
    (Option.some_get noisyAll_isSome).symm noisy_usual
  exact ⟨hdelivers, hiff, by decide +kernel, by decide +kernel⟩

end Lc3Simulator
