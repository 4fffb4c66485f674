import Mathlib.Init

/-!
# Guarded runs of a machine that may fault

A machine is a step function on an explicit state. A step without a result is
a fault: the code under study would read or write outside its memory, or fail
an assertion. Operations are permitted by a predicate on the state they meet,
so a run is guarded step by step and not by one condition on its whole input.
-/

namespace GuardedRuns

universe u v w

variable {State : Type u} {Op : Type v} {Spec : Type w}

/-- Execute the operations from left to right, stopping at the first fault. -/
def run (step : State → Op → Option State) : State → List Op → Option State
  | s, [] => some s
  | s, op :: ops => (step s op).bind fun t => run step t ops

/-- Every operation is permitted in the state in which the run executes it. -/
def Permitted (step : State → Op → Option State) (ok : State → Op → Prop) :
    State → List Op → Prop
  | _, [] => True
  | s, op :: ops => ok s op ∧ ∀ t, step s op = some t → Permitted step ok t ops

instance decidablePermitted {step : State → Op → Option State} {ok : State → Op → Prop}
    [∀ s op, Decidable (ok s op)] : ∀ s ops, Decidable (Permitted step ok s ops)
  | _, [] => isTrue trivial
  | s, op :: ops =>
    match h : step s op with
    | none => decidable_of_iff (ok s op) ⟨fun hok => ⟨hok, by simp [h]⟩, And.left⟩
    | some t =>
      have : Decidable (Permitted step ok t ops) := decidablePermitted t ops
      decidable_of_iff (ok s op ∧ Permitted step ok t ops)
        ⟨fun hp => ⟨hp.1, fun r hr => Option.some.inj (h.symm.trans hr) ▸ hp.2⟩,
          fun hp => ⟨hp.1, hp.2 t h⟩⟩

@[simp] theorem run_nil (step : State → Op → Option State) (s : State) :
    run step s [] = some s := rfl

theorem run_cons (step : State → Op → Option State) (s : State) (op : Op) (ops : List Op) :
    run step s (op :: ops) = (step s op).bind fun t => run step t ops := rfl

theorem run_append (step : State → Op → Option State) (s : State) (first rest : List Op) :
    run step s (first ++ rest) = (run step s first).bind fun t => run step t rest := by
  induction first generalizing s with
  | nil => rfl
  | cons op ops ih =>
    rw [List.cons_append, run_cons, run_cons]
    cases hs : step s op with
    | none => rfl
    | some t => simpa only [Option.bind_some] using ih t

theorem permitted_true (step : State → Op → Option State) (s : State) (ops : List Op) :
    Permitted step (fun _ _ => True) s ops := by
  induction ops generalizing s with
  | nil => trivial
  | cons op ops ih => exact ⟨trivial, fun t _ => ih t⟩

/-- Forward simulation: if each permitted step keeps the relation to an
abstract state, then no permitted run faults and its result is related to the
abstract run. -/
theorem run_simulates {step : State → Op → Option State} {ok : State → Op → Prop}
    (specStep : Spec → Op → Spec) (related : State → Spec → Prop)
    (keeps : ∀ s a op, related s a → ok s op →
      ∃ t, step s op = some t ∧ related t (specStep a op))
    {s : State} {a : Spec} (start : related s a) {ops : List Op}
    (permitted : Permitted step ok s ops) :
    ∃ t, run step s ops = some t ∧ related t (ops.foldl specStep a) := by
  induction ops generalizing s a with
  | nil => exact ⟨s, rfl, start⟩
  | cons op ops ih =>
    obtain ⟨t, ht, hrel⟩ := keeps s a op start permitted.1
    obtain ⟨r, hr, hfinal⟩ := ih hrel (permitted.2 t ht)
    refine ⟨r, ?_, hfinal⟩
    rw [run_cons, ht, Option.bind_some, hr]

/-- An invariant kept by every permitted step holds after every permitted run. -/
theorem run_keeps {step : State → Op → Option State} {ok : State → Op → Prop}
    (inv : State → Prop)
    (keeps : ∀ s op, inv s → ok s op → ∃ t, step s op = some t ∧ inv t)
    {s : State} (start : inv s) {ops : List Op} (permitted : Permitted step ok s ops) :
    ∃ t, run step s ops = some t ∧ inv t := by
  exact @run_simulates State Op Unit step ok (fun a _ => a) (fun r _ => inv r)
    (fun r _ op hr hok => keeps r op hr hok) s () start ops permitted

variable {ok : State → Op → Prop} {s : State} {step : State → Op → Option State}

/-- If permitted steps may fault as well, the invariant holds after every permitted run
which did not. -/
theorem run_invariant (inv : State → Prop)
    (keeps : ∀ s op t, inv s → ok s op → step s op = some t → inv t) {t : State} (start : inv s)
    {ops : List Op} (permitted : Permitted step ok s ops) (h : run step s ops = some t) :
    inv t := by
  induction ops generalizing s with
  | nil =>
    obtain rfl := Option.some.inj h
    exact start
  | cons op ops ih =>
    rw [run_cons] at h
    obtain ⟨r, hr, hrest⟩ := Option.bind_eq_some_iff.mp h
    exact ih (keeps s op r start permitted.1 hr) (permitted.2 r hr) hrest

/-- Two guards are the same on a run if they agree in every state that keeps
an invariant. -/
theorem permitted_congr {ok' : State → Op → Prop} (inv : State → Prop)
    (keeps : ∀ s op t, inv s → ok s op → step s op = some t → inv t)
    (agree : ∀ s op, inv s → (ok s op ↔ ok' s op)) (start : inv s) (ops : List Op) :
    Permitted step ok s ops ↔ Permitted step ok' s ops := by
  induction ops generalizing s with
  | nil => exact Iff.rfl
  | cons op ops ih =>
    rw [Permitted, Permitted, ← agree s op start]
    apply and_congr_right
    intro hok
    apply forall_congr'
    intro t
    apply imp_congr_right
    intro ht
    exact ih (keeps s op t start hok ht)

end GuardedRuns
