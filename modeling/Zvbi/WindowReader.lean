import Mathlib.Data.List.Basic

/-!
# Readers which look at a window of their input

A reader waits for a number of items, acts on them, and then skips some items, of
which it need not have seen all. The items it does not skip it sees again. As a
machine which takes one item at a time it holds back the items of an incomplete
window. Reading is described here by what is read, however it was cut into pieces.
-/

namespace WindowReader

universe u v

/-- How many items a reader waits for, and what it does with them: the next state
and the number of items to skip. -/
structure Reader (State : Type u) (Item : Type v) where
  need : State → Nat
  act : State → List Item → State × Nat

structure Config (State : Type u) (Item : Type v) where
  state : State
  skip : Nat
  held : List Item

variable {State : Type u} {Item : Type v}

def settle (next : State × Nat) (held : List Item) : Config State Item :=
  ⟨next.1, next.2 - held.length, held.drop next.2⟩

def step (r : Reader State Item) (c : Config State Item) (x : Item) : Config State Item :=
  if 0 < c.skip then { c with skip := c.skip - 1 }
  else if (c.held ++ [x]).length < r.need c.state then { c with held := c.held ++ [x] }
  else settle (r.act c.state (c.held ++ [x])) (c.held ++ [x])

def read (r : Reader State Item) (c : Config State Item) (xs : List Item) : Config State Item :=
  xs.foldl (step r) c

/-- A reader looks at no more than it asked for, and does not ask twice for the
same items. -/
structure Lawful (r : Reader State Item) : Prop where
  need_pos : ∀ s, 0 < r.need s
  window : ∀ s xs, r.need s ≤ xs.length → r.act s xs = r.act s (xs.take (r.need s))
  progress : ∀ s xs, xs.length = r.need s → xs.length - (r.act s xs).2 < r.need (r.act s xs).1

variable {r : Reader State Item}

@[simp] theorem read_nil (c : Config State Item) : read r c [] = c := rfl

theorem read_append (c : Config State Item) (xs ys : List Item) :
    read r c (xs ++ ys) = read r (read r c xs) ys := List.foldl_append

theorem read_cons (c : Config State Item) (x : Item) (xs : List Item) :
    read r c (x :: xs) = read r (step r c x) xs := rfl

variable {xs : List Item} {c : Config State Item}

theorem read_skip (s : State) {skip : Nat} (h : xs.length ≤ skip) :
    read r ⟨s, skip, []⟩ xs = ⟨s, skip - xs.length, []⟩ := by
  induction xs generalizing skip with
  | nil => rfl
  | cons x xs ih =>
    rw [List.length_cons] at h ⊢
    have hpos : 0 < skip := by omega
    have hstep : step r ⟨s, skip, []⟩ x = ⟨s, skip - 1, []⟩ := if_pos hpos
    rw [read_cons, hstep, ih (by omega)]
    congr 1
    omega

theorem read_drop (s : State) {skip : Nat} (h : skip ≤ xs.length) :
    read r ⟨s, skip, []⟩ xs = read r ⟨s, 0, []⟩ (xs.drop skip) := by
  have hskip : read r ⟨s, skip, []⟩ (xs.take skip) = ⟨s, 0, []⟩ := by
    have htake : (xs.take skip).length = skip := List.length_take_of_le h
    rw [read_skip s (Nat.le_of_eq htake), htake, Nat.sub_self]
  rw [← hskip, ← read_append, List.take_append_drop]

theorem read_hold (s : State) {held : List Item} (h : (held ++ xs).length < r.need s) :
    read r ⟨s, 0, held⟩ xs = ⟨s, 0, held ++ xs⟩ := by
  induction xs generalizing held with
  | nil => rw [List.append_nil, read_nil]
  | cons x xs ih =>
    have happend : held ++ x :: xs = held ++ [x] ++ xs := by simp
    rw [happend] at h ⊢
    have hpart : (held ++ [x]).length < r.need s := by
      rw [List.length_append] at h
      omega
    have hstep : step r ⟨s, 0, held⟩ x = ⟨s, 0, held ++ [x]⟩ := by
      rw [step, if_neg (by exact Nat.lt_irrefl 0), if_pos hpart]
    rw [read_cons, hstep, ih h]

/-- Once a window is complete, reading goes on with the next state at the same
place. -/
theorem read_act (hr : Lawful r) (s : State) (h : r.need s ≤ xs.length) :
    read r ⟨s, 0, []⟩ xs = read r ⟨(r.act s xs).1, (r.act s xs).2, []⟩ xs := by
  rw [hr.window s xs h]
  obtain ⟨window, x, hwindow⟩ : ∃ window x, xs.take (r.need s) = window ++ [x] := by
    have hpos := hr.need_pos s
    have hne : xs.take (r.need s) ≠ [] := by
      apply List.ne_nil_of_length_pos
      rw [List.length_take_of_le h]
      exact hpos
    exact ⟨_, _, (List.dropLast_concat_getLast hne).symm⟩
  have hlength : (window ++ [x]).length = r.need s := by
    rw [← hwindow, List.length_take_of_le h]
  have hshort : ([] ++ window).length < r.need s := by
    rw [List.nil_append, ← hlength, List.length_append, List.length_singleton]
    omega
  have hprogress := hr.progress s _ hlength
  -- both sides are in the same state after the window
  have hleft : read r ⟨s, 0, []⟩ (window ++ [x]) =
      settle (r.act s (window ++ [x])) (window ++ [x]) := by
    rw [read_append, read_hold s hshort, List.nil_append, read_cons, read_nil, step,
      if_neg (by exact Nat.lt_irrefl 0), if_neg (Nat.not_lt.mpr (Nat.le_of_eq hlength.symm))]
  have hright : read r ⟨(r.act s (window ++ [x])).1, (r.act s (window ++ [x])).2, []⟩
      (window ++ [x]) = settle (r.act s (window ++ [x])) (window ++ [x]) := by
    rw [settle]
    by_cases hskip : (window ++ [x]).length ≤ (r.act s (window ++ [x])).2
    · rw [read_skip _ hskip, List.drop_eq_nil_of_le hskip]
    · rw [read_drop _ (by omega), read_hold, List.nil_append, Nat.sub_eq_zero_of_le (by omega)]
      rw [List.nil_append, List.length_drop]
      exact hprogress
  rw [hwindow]
  have hsplit : xs = (window ++ [x]) ++ xs.drop (r.need s) := by
    rw [← hwindow, List.take_append_drop]
  rw [hsplit, read_append, hleft, read_append _ (window ++ [x]), hright]

def Settled (r : Reader State Item) (c : Config State Item) : Prop :=
  (c.skip = 0 ∨ c.held = []) ∧ c.held.length < r.need c.state

theorem settled_step (hr : Lawful r) (hc : Settled r c) (x : Item) :
    Settled r (step r c x) := by
  obtain ⟨hskip, hheld⟩ := hc
  rw [step]
  split
  · rename_i hpos
    rcases hskip with hzero | hempty
    · omega
    · exact ⟨Or.inr hempty, hheld⟩
  · rename_i hzero
    split
    · rename_i hshort
      exact ⟨Or.inl (Nat.eq_zero_of_not_pos hzero), hshort⟩
    · rename_i hfull
      have hlength : (c.held ++ [x]).length = r.need c.state := by
        rw [List.length_append, List.length_singleton] at hfull ⊢
        omega
      have hprogress := hr.progress c.state _ hlength
      rw [settle]
      refine ⟨?_, by rwa [List.length_drop]⟩
      by_cases h : (r.act c.state (c.held ++ [x])).2 ≤ (c.held ++ [x]).length
      · exact Or.inl (Nat.sub_eq_zero_of_le h)
      · exact Or.inr (List.drop_eq_nil_of_le (by omega))

theorem settled_read (hr : Lawful r) (hc : Settled r c) (xs : List Item) :
    Settled r (read r c xs) := by
  induction xs generalizing c with
  | nil => exact hc
  | cons x xs ih => exact ih (settled_step hr hc x)

/-- Items held back may as well be read again. -/
theorem read_held (hc : Settled r c) (xs : List Item) :
    read r ⟨c.state, c.skip, []⟩ (c.held ++ xs) = read r c xs := by
  obtain ⟨s, skip, held⟩ := c
  obtain ⟨hskip, hheld⟩ := hc
  have hstart : read r ⟨s, skip, []⟩ held = ⟨s, skip, held⟩ := by
    rcases hskip with hzero | hempty
    · dsimp only at hzero hheld
      rw [hzero, read_hold s (by rwa [List.nil_append]), List.nil_append]
    · dsimp only at hempty
      rw [hempty, read_nil]
  rw [read_append, hstart]

end WindowReader
