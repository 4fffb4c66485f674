import Mathlib.Data.List.Basic

/-!
# Lists behind a cursor

A function which takes a position to the next one lists elements if it is called
with its own results until there is none.
-/

namespace CursorLists

universe u
variable {Position : Type u}

/-- The calls from `c` on return the positions of the list and then nothing. -/
def Lists (next : Position → Option Position) : Position → List Position → Prop
  | c, [] => next c = none
  | c, d :: rest => next c = some d ∧ Lists next d rest

/-- The calls from `c` on return the positions of the list. -/
def Steps (next : Position → Option Position) : Position → List Position → Prop
  | _, [] => True
  | c, d :: rest => next c = some d ∧ Steps next d rest

variable {next : Position → Option Position}

variable {c : Position} {l : List Position}

theorem Lists.next_eq_head (h : Lists next c l) : next c = l.head? := by
  cases l with
  | nil => exact h
  | cons d l => exact h.1

theorem lists_append_iff {m : List Position} (h : Steps next c l) :
    Lists next c (l ++ m) ↔ Lists next (l.getLastD c) m := by
  induction l generalizing c with
  | nil => exact Iff.rfl
  | cons d l ih =>
    rw [List.getLastD_cons, ← ih h.2]
    exact and_iff_right h.1

end CursorLists
