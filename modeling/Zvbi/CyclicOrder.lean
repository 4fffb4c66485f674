import Mathlib.Data.List.Basic
import Mathlib.Data.List.Pairwise
import Mathlib.Data.List.Nodup
import Mathlib.Tactic.Ring

/-!
# Cyclic order

A list goes through an order cyclically from a start if it begins with what is
not before the start, in order, and ends with what is before the start, in order.
The orders here are lexicographic, upwards or downwards.
-/

namespace CyclicOrder

universe u v

variable {Key : Type u} {Item : Type v}

def CyclicFrom (before : Key → Key → Prop) (start : Key) (keys : List Key) : Prop :=
  ∃ ahead behind, keys = ahead ++ behind ∧ ahead.Pairwise before ∧ behind.Pairwise before ∧
    (∀ k ∈ ahead, ¬before k start) ∧ ∀ k ∈ behind, before k start

variable {before : Key → Key → Prop} {keys : List Key} {start : Key} {dir : Int}

theorem CyclicFrom.sublist {some : List Key} (h : CyclicFrom before start keys)
    (hsub : some.Sublist keys) : CyclicFrom before start some := by
  obtain ⟨ahead, behind, rfl, hahead, hbehind, hnot, hbefore⟩ := h
  obtain ⟨first, rest, rfl, hfirst, hrest⟩ := List.sublist_append_iff.mp hsub
  exact ⟨first, rest, rfl, hahead.sublist hfirst, hbehind.sublist hrest,
    fun k hk => hnot k (hfirst.subset hk), fun k hk => hbefore k (hrest.subset hk)⟩

theorem CyclicFrom.nodup (irrefl : ∀ k, ¬before k k) (h : CyclicFrom before start keys) :
    keys.Nodup := by
  have once : ∀ l : List Key, l.Pairwise before → l.Nodup := by
    intro l hl
    refine hl.imp ?_
    rintro a b hab rfl
    exact irrefl a hab
  obtain ⟨ahead, behind, rfl, hahead, hbehind, hnot, hbefore⟩ := h
  refine List.nodup_append.mpr ⟨once ahead hahead, once behind hbehind, ?_⟩
  rintro a ha b hb rfl
  exact hnot a ha (hbefore a hb)

/-- The keys of what was found are some of those tried. -/
theorem filterMap_key_sublist {find : Key → Option Item} {key : Item → Key}
    (hkey : ∀ k ∈ keys, ∀ a, find k = some a → key a = k) :
    ((keys.filterMap find).map key).Sublist keys := by
  induction keys with
  | nil => exact List.Sublist.refl _
  | cons k keys ih =>
    have hrest := ih fun j hj => hkey j (List.mem_cons_of_mem k hj)
    cases hk : find k with
    | none =>
      rw [List.filterMap_cons_none hk]
      exact hrest.cons k
    | some a =>
      rw [List.filterMap_cons_some hk, List.map_cons, hkey k List.mem_cons_self a hk]
      exact hrest.cons_cons k

def laps (k : Nat) (order : List Item) : List Item := (List.replicate k order).flatten

@[simp] theorem laps_zero (order : List Item) : laps 0 order = [] := rfl

theorem laps_succ (k : Nat) (order : List Item) : laps (k + 1) order = order ++ laps k order := by
  rw [laps, List.replicate_succ, List.flatten_cons, laps]

theorem laps_succ' (k : Nat) (order : List Item) : laps (k + 1) order = laps k order ++ order := by
  rw [laps, List.replicate_succ', List.flatten_append, laps]
  simp

theorem laps_rotate (first rest : List Item) (k : Nat) :
    first ++ laps k (rest ++ first) = laps k (first ++ rest) ++ first := by
  induction k with
  | zero => simp
  | succ k ih => rw [laps_succ, laps_succ, List.append_assoc, List.append_assoc, ← ih,
      List.append_assoc]

def stretch (dir start : Int) (m : Nat) : List Int :=
  (List.range m).map fun i : Nat => start + dir * i

@[simp] theorem stretch_zero (dir start : Int) : stretch dir start 0 = [] := rfl

theorem stretch_add (dir start : Int) (m k : Nat) :
    stretch dir start (m + k) = stretch dir start m ++ stretch dir (start + dir * m) k := by
  rw [stretch, List.range_add, List.map_append, List.map_map, stretch, stretch]
  congr 1
  apply List.map_congr_left
  intro i _
  simp only [Function.comp_apply, Nat.cast_add]
  ring

theorem stretch_one (dir start : Int) : stretch dir start 1 = [start] := by
  simp [stretch]

theorem stretch_succ (dir start : Int) (m : Nat) :
    stretch dir start (m + 1) = start :: stretch dir (start + dir) m := by
  rw [Nat.add_comm, stretch_add, stretch_one]
  simp

theorem mem_stretch {start : Int} {m : Nat} {x : Int} :
    x ∈ stretch dir start m ↔ ∃ i : Nat, i < m ∧ x = start + dir * i := by
  simp only [stretch, List.mem_map, List.mem_range, eq_comm]

def OneStep (dir : Int) : Prop := dir = 1 ∨ dir = -1

theorem stretch_pairwise (hdir : OneStep dir) (start : Int) (m : Nat) :
    (stretch dir start m).Pairwise fun x y => dir * x < dir * y := by
  refine List.Pairwise.map _ ?_ List.pairwise_lt_range
  intro i j hij
  rcases hdir with rfl | rfl
  · omega
  · omega

def precedes (dir : Int) (k k' : Int × Int) : Prop :=
  dir * k.1 < dir * k'.1 ∨ k.1 = k'.1 ∧ dir * k.2 < dir * k'.2

theorem precedes_irrefl (dir : Int) (k : Int × Int) : ¬precedes dir k k := by
  rintro (h | ⟨-, h⟩)
  · exact Int.lt_irrefl _ h
  · exact Int.lt_irrefl _ h

def row (r : Int) (columns : List Int) : List (Int × Int) := columns.map fun c => (r, c)

theorem row_pairwise (r : Int) {columns : List Int}
    (h : columns.Pairwise fun x y => dir * x < dir * y) : (row r columns).Pairwise (precedes dir) :=
  List.Pairwise.map _ (fun _ _ hlt => Or.inr ⟨rfl, hlt⟩) h

/-- Rows in order, with their columns in order. -/
theorem rows_pairwise {rows : List Int} {columns : Int → List Int}
    (hrows : rows.Pairwise fun x y => dir * x < dir * y)
    (hcolumns : ∀ r, (columns r).Pairwise fun x y => dir * x < dir * y) :
    (rows.flatMap fun r => row r (columns r)).Pairwise (precedes dir) := by
  rw [List.pairwise_flatMap]
  refine ⟨fun r _ => row_pairwise r (hcolumns r), hrows.imp ?_⟩
  intro r r' hlt k hk k' hk'
  obtain ⟨c, -, rfl⟩ := List.mem_map.mp hk
  obtain ⟨c', -, rfl⟩ := List.mem_map.mp hk'
  exact Or.inl hlt

end CyclicOrder
