import Mathlib.Data.List.Basic

/-!
# Stores into a block of fixed size

A block of memory is the list of its cells. A load or a store names a first cell and a
number of cells, and has no result when one of them lies behind the end of the block.
-/

namespace BlockStore

variable {Cell : Type*}

/-- The `count` cells from `start` on, all of them inside the block. -/
def load (cells : List Cell) (start count : Nat) : Option (List Cell) :=
  if start + count ≤ cells.length then some ((cells.drop start).take count) else none

/-- Copy `source` into the block at `start`. -/
def store (cells : List Cell) (start : Nat) (source : List Cell) : Option (List Cell) :=
  if start + source.length ≤ cells.length then
    some (cells.take start ++ source ++ cells.drop (start + source.length))
  else none

theorem load_zero {cells : List Cell} {count : Nat} (hcount : count ≤ cells.length) :
    load cells 0 count = some (cells.take count) := by
  simp [load, hcount]

variable {cells cells' source : List Cell} {start : Nat}

theorem store_isSome (hroom : start + source.length ≤ cells.length) :
    ∃ cells', store cells start source = some cells' := by
  exact ⟨_, if_pos hroom⟩

theorem store_eq (hstore : store cells start source = some cells') :
    start + source.length ≤ cells.length ∧
      cells' = cells.take start ++ source ++ cells.drop (start + source.length) := by
  simp only [store, Option.ite_none_right_eq_some, Option.some.injEq] at hstore
  exact ⟨hstore.1, hstore.2.symm⟩

/-- A store neither lengthens nor shortens the block. -/
theorem store_length (hstore : store cells start source = some cells') :
    cells'.length = cells.length := by
  obtain ⟨hroom, rfl⟩ := store_eq hstore
  simp only [List.length_append, List.length_take, List.length_drop]
  omega

/-- Up to the end of the store stand the old cells and then the source. -/
theorem take_store (hstore : store cells start source = some cells') :
    cells'.take (start + source.length) = cells.take start ++ source := by
  obtain ⟨hroom, rfl⟩ := store_eq hstore
  have hlength : (cells.take start ++ source).length = start + source.length := by
    rw [List.length_append, List.length_take]
    omega
  rw [← hlength, List.take_left]

/-- A part of the source that is stored alone ends the same way. -/
theorem take_store_append {tail : List Cell}
    (hstore : store cells start (source ++ tail) = some cells') :
    cells'.take (start + source.length) = cells.take start ++ source := by
  have htake := congrArg (List.take (start + source.length)) (take_store hstore)
  obtain ⟨hroom, -⟩ := store_eq hstore
  have hlength : (cells.take start ++ source).length = start + source.length := by
    rw [List.length_append, List.length_take]
    simp only [List.length_append] at hroom
    omega
  rw [List.take_take, Nat.min_eq_left (by simp), ← List.append_assoc, ← hlength,
    List.take_left] at htake
  rw [← hlength]
  exact htake

end BlockStore
