import Mathlib.Init

/-!
# Machines that read a stream and produce output

A machine reads one item at a time and may produce output or reject the item.
Running it is compatible with concatenation of the input, which is what makes
a result independent of how the input was cut into pieces.
-/

namespace StreamMachine

universe u v w

variable {State : Type u} {Item : Type v} {Out : Type w}

/-- Read the items from left to right and collect the output in order. -/
def run (step : State → Item → Option (State × List Out)) :
    State → List Item → Option (State × List Out)
  | s, [] => some (s, [])
  | s, x :: xs =>
    match step s x with
    | none => none
    | some (t, out) =>
      match run step t xs with
      | none => none
      | some (r, rest) => some (r, out ++ rest)

variable {step : State → Item → Option (State × List Out)}

@[simp] theorem run_nil (s : State) : run step s [] = some (s, []) := rfl

theorem run_singleton (s : State) (x : Item) : run step s [x] = step s x := by
  simp only [run]
  cases step s x with
  | none => rfl
  | some r => simp only [List.append_nil]

variable {s t r : State} {x : Item} {out : List Out} {xs : List Item}

theorem run_silent (h : step s x = some (t, [])) (xs : List Item) :
    run step s (x :: xs) = run step t xs := by
  simp only [run, h]
  cases run step t xs with
  | none => rfl
  | some r => rfl

variable {rest : List Out} {ys got : List Item}

theorem run_cons (h : step s x = some (t, out)) (hr : run step t xs = some (r, rest)) :
    run step s (x :: xs) = some (r, out ++ rest) := by
  simp only [run, h, hr]

theorem run_cons_inv (h : run step s (x :: xs) = some (r, out)) :
    ∃ t first rest, step s x = some (t, first) ∧ run step t xs = some (r, rest) ∧
      out = first ++ rest := by
  cases hs : step s x with
  | none => simp [run, hs] at h
  | some t =>
    cases hr : run step t.1 xs with
    | none => simp [run, hs, hr] at h
    | some q =>
      simp only [run, hs, hr, Option.some.injEq, Prod.mk.injEq] at h
      exact ⟨t.1, t.2, q.2, rfl, by rw [hr, ← h.1], h.2.symm⟩

theorem run_append (hx : run step s xs = some (t, out)) (hy : run step t ys = some (r, rest)) :
    run step s (xs ++ ys) = some (r, out ++ rest) := by
  induction xs generalizing s out with
  | nil =>
    simp only [run_nil, Option.some.injEq, Prod.mk.injEq] at hx
    obtain ⟨rfl, rfl⟩ := hx
    exact hy
  | cons x xs ih =>
    obtain ⟨m, first, tail, hm, hxs, rfl⟩ := run_cons_inv hx
    rw [List.append_assoc]
    exact run_cons hm (ih hxs)

theorem run_append_inv (h : run step s (xs ++ ys) = some (r, out)) :
    ∃ t first rest, run step s xs = some (t, first) ∧ run step t ys = some (r, rest) ∧
      out = first ++ rest := by
  induction xs generalizing s out with
  | nil => exact ⟨s, [], out, rfl, h, rfl⟩
  | cons x xs ih =>
    obtain ⟨m, head, tail, hm, hrest, rfl⟩ := run_cons_inv h
    obtain ⟨t, first, rest, hxs, hys, rfl⟩ := ih hrest
    exact ⟨t, head ++ first, rest, run_cons hm hxs, hys, by rw [List.append_assoc]⟩

/-- From `wait got` the machine gathers items up to a total of `n` and then
acts on all of them. -/
structure Gathers (step : State → Item → Option (State × List Out)) (wait : List Item → State)
    (n : Nat) (act : List Item → Option (State × List Out)) : Prop where
  more : ∀ got x, got.length + 1 < n → step (wait got) x = some (wait (got ++ [x]), [])
  full : ∀ got x, got.length + 1 = n → step (wait got) x = act (got ++ [x])

variable {wait : List Item → State} {n : Nat} {act : List Item → Option (State × List Out)}

theorem Gathers.run_part (hg : Gathers step wait n act) (h : got.length + xs.length < n) :
    run step (wait got) xs = some (wait (got ++ xs), []) := by
  induction xs generalizing got with
  | nil => rw [List.append_nil, run_nil]
  | cons x xs ih =>
    rw [List.length_cons] at h
    have hnext : (got ++ [x]).length + xs.length < n := by
      rw [List.length_append, List.length_singleton]
      omega
    have hrest := run_cons (hg.more got x (by omega)) (ih hnext)
    rwa [List.append_assoc] at hrest

/-- The machine acts once the last item has arrived. -/
theorem Gathers.run_full (hg : Gathers step wait n act) (part : got.length < n)
    (total : got.length + xs.length = n) : run step (wait got) xs = act (got ++ xs) := by
  induction xs generalizing got with
  | nil =>
    rw [List.length_nil] at total
    omega
  | cons x xs ih =>
    rw [List.length_cons] at total
    cases xs with
    | nil => rw [run_singleton, hg.full got x total]
    | cons y ys =>
      rw [List.length_cons] at total
      have hmore := hg.more got x (by omega)
      have hrest : run step (wait (got ++ [x])) (y :: ys) = act (got ++ [x] ++ y :: ys) := by
        apply ih
        · rw [List.length_append, List.length_singleton]
          omega
        · rw [List.length_append, List.length_singleton, List.length_cons]
          omega
      rw [run_silent hmore, hrest, List.append_assoc, List.singleton_append]

end StreamMachine
