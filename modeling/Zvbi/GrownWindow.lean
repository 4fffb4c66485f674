import Mathlib.Data.List.Basic

/-!
# Windows grown over ranges

A window is a start and a count. It is extended for one range after the other,
the start first, the count from the new start. Whatever the window covered
beyond the new range is lost by as much as the start moved, unless the range
reaches as far.
-/

namespace GrownWindow

abbrev Range := Nat × Nat

structure Window where
  start : Nat
  count : Nat
  deriving DecidableEq

def extend (w : Window) (r : Range) : Window :=
  let start := min w.start r.1
  ⟨start, max (start + w.count) (r.2 + 1) - start⟩

def grow (w : Window) (ranges : List Range) : Window := ranges.foldl extend w

def Contains (w : Window) (r : Range) : Prop := w.start ≤ r.1 ∧ r.2 < w.start + w.count

instance (w : Window) (r : Range) : Decidable (Contains w r) :=
  inferInstanceAs (Decidable (_ ∧ _))

/-- One of the ranges which end last does not come before all ranges which start
first. -/
def Reaches (ranges : List Range) : Prop :=
  ∃ before r after, ranges = before ++ r :: after ∧ (∀ x ∈ ranges, x.2 ≤ r.2) ∧
    ∃ q ∈ before ++ [r], ∀ x ∈ ranges, q.1 ≤ x.1

structure Grown (ranges : List Range) (w : Window) : Prop where
  start : ∃ q ∈ ranges, q.1 = w.start
  least : ∀ x ∈ ranges, w.start ≤ x.1
  ends : ∃ r ∈ ranges, (∀ x ∈ ranges, x.2 ≤ r.2) ∧ w.start + w.count ≤ r.2 + 1
  reaches : (∀ x ∈ ranges, x.2 < w.start + w.count) ↔ Reaches ranges

theorem extend_end (w : Window) (r : Range) :
    (extend w r).start + (extend w r).count = max (min w.start r.1 + w.count) (r.2 + 1) := by
  simp only [extend]
  omega

variable {s : Nat} {w : Window}

theorem grown_single {r : Range} (h : r.1 ≤ r.2) (hs : r.1 ≤ s) :
    Grown [r] (extend ⟨s, 0⟩ r) := by
  have hend := extend_end ⟨s, 0⟩ r
  have hstart : (extend ⟨s, 0⟩ r).start = r.1 := Nat.min_eq_right hs
  rw [Nat.add_zero, Nat.min_eq_right hs, Nat.max_eq_right (by omega)] at hend
  constructor
  · exact ⟨r, List.mem_singleton_self r, hstart.symm⟩
  · intro x hx
    rw [List.mem_singleton.mp hx]
    exact Nat.le_of_eq hstart
  · refine ⟨r, List.mem_singleton_self r, ?_, Nat.le_of_eq hend⟩
    intro x hx
    obtain rfl := List.mem_singleton.mp hx
    exact Nat.le_refl _
  · constructor
    · intro _
      refine ⟨[], r, [], rfl, ?_, r, List.mem_singleton_self r, ?_⟩
      · intro x hx
        obtain rfl := List.mem_singleton.mp hx
        exact Nat.le_refl _
      · intro x hx
        obtain rfl := List.mem_singleton.mp hx
        exact Nat.le_refl _
    · intro _ x hx
      rw [List.mem_singleton.mp hx, hend]
      exact Nat.lt_succ_self _

variable {ranges : List Range}

/-- A range after one which ends later is not the one that ends last. -/
theorem reaches_before {x y : Range} (hy : y ∈ ranges) (hless : x.2 < y.2) :
    Reaches (ranges ++ [x]) ↔ Reaches ranges ∧ ∀ q ∈ ranges, (∀ z ∈ ranges, q.1 ≤ z.1) →
      q.1 ≤ x.1 := by
  constructor
  · rintro ⟨before, r, after, hsplit, hlast, q, hq, hfirst⟩
    rcases List.eq_nil_or_concat after with rfl | ⟨after, z, rfl⟩
    · obtain ⟨rfl, hx⟩ := List.append_inj' hsplit rfl
      cases hx
      have hle := hlast y (List.mem_append_left _ hy)
      omega
    · rw [List.concat_eq_append, ← List.cons_append, ← List.append_assoc] at hsplit
      obtain ⟨rfl, hx⟩ := List.append_inj' hsplit rfl
      cases hx
      have hmem : q ∈ before ++ r :: after := by
        rcases List.mem_append.mp hq with hq | hq
        · exact List.mem_append_left _ hq
        · rw [List.mem_singleton.mp hq]
          exact List.mem_append_right _ List.mem_cons_self
      refine ⟨⟨before, r, after, rfl, ?_, q, hq, ?_⟩, ?_⟩
      · exact fun z hz => hlast z (List.mem_append_left _ hz)
      · exact fun z hz => hfirst z (List.mem_append_left _ hz)
      · intro p _ hp
        exact Nat.le_trans (hp q hmem) (hfirst x (List.mem_append_right _ List.mem_cons_self))
  · rintro ⟨⟨before, r, after, rfl, hlast, q, hq, hfirst⟩, hleast⟩
    have hmem : q ∈ before ++ r :: after := by
      rcases List.mem_append.mp hq with hq | hq
      · exact List.mem_append_left _ hq
      · rw [List.mem_singleton.mp hq]
        exact List.mem_append_right _ List.mem_cons_self
    refine ⟨before, r, after ++ [x], by rw [List.append_assoc, List.cons_append], ?_, q, hq, ?_⟩
    · intro z hz
      rcases List.mem_append.mp hz with hz | hz
      · exact hlast z hz
      · rw [List.mem_singleton.mp hz]
        have hle := hlast y hy
        omega
    · intro z hz
      rcases List.mem_append.mp hz with hz | hz
      · exact hfirst z hz
      · rw [List.mem_singleton.mp hz]
        exact hleast q hmem hfirst

theorem grown_extend (h : Grown ranges w) (x : Range) :
    Grown (ranges ++ [x]) (extend w x) := by
  have hend := extend_end w x
  have hstart : (extend w x).start = min w.start x.1 := rfl
  obtain ⟨q, hq, hqs⟩ := h.start
  obtain ⟨r, hr, hmax, hle⟩ := h.ends
  have hleast : ∀ z ∈ ranges ++ [x], (extend w x).start ≤ z.1 := by
    intro z hz
    rcases List.mem_append.mp hz with hz | hz
    · have hz' := h.least z hz
      omega
    · rw [List.mem_singleton.mp hz]
      omega
  have hfirst : ∃ p ∈ ranges ++ [x], p.1 = (extend w x).start := by
    by_cases hmove : w.start ≤ x.1
    · exact ⟨q, List.mem_append_left _ hq, by omega⟩
    · exact ⟨x, List.mem_append_right _ List.mem_cons_self, by omega⟩
  refine ⟨hfirst, hleast, ?_, ?_⟩
  · by_cases hlast : r.2 ≤ x.2
    · refine ⟨x, List.mem_append_right _ List.mem_cons_self, ?_, by omega⟩
      intro z hz
      rcases List.mem_append.mp hz with hz | hz
      · exact Nat.le_trans (hmax z hz) hlast
      · obtain rfl := List.mem_singleton.mp hz
        exact Nat.le_refl _
    · refine ⟨r, List.mem_append_left _ hr, ?_, by omega⟩
      intro z hz
      rcases List.mem_append.mp hz with hz | hz
      · exact hmax z hz
      · rw [List.mem_singleton.mp hz]
        omega
  · by_cases hlast : r.2 ≤ x.2
    · -- the new range ends last
      have hall : ∀ z ∈ ranges ++ [x], z.2 ≤ x.2 := by
        intro z hz
        rcases List.mem_append.mp hz with hz | hz
        · exact Nat.le_trans (hmax z hz) hlast
        · obtain rfl := List.mem_singleton.mp hz
          exact Nat.le_refl _
      obtain ⟨p, hp, hps⟩ := hfirst
      refine ⟨fun _ => ⟨ranges, x, [], rfl, hall, p, hp, ?_⟩, fun _ z hz => ?_⟩
      · intro z hz
        rw [hps]
        exact hleast z hz
      · have hz' := hall z hz
        omega
    · rw [reaches_before hr (Nat.not_le.mp hlast), ← h.reaches]
      constructor
      · intro hcover
        have hr' := hcover r (List.mem_append_left _ hr)
        refine ⟨fun z hz => ?_, fun p hp hpleast => ?_⟩
        · have hz' := hmax z hz
          omega
        · have hps := hpleast q hq
          omega
      · rintro ⟨hcover, hmove⟩ z hz
        have hkeep := hmove q hq fun z hz => hqs ▸ h.least z hz
        rcases List.mem_append.mp hz with hz | hz
        · have hz' := hcover z hz
          omega
        · rw [List.mem_singleton.mp hz]
          omega

theorem grown_grow {more : List Range} (h : Grown ranges w) :
    Grown (ranges ++ more) (grow w more) := by
  induction more generalizing ranges w with
  | nil =>
    rw [List.append_nil]
    exact h
  | cons x more ih =>
    have hrest := ih (grown_extend h x)
    rw [List.append_assoc] at hrest
    exact hrest

/-- A window grown over ranges is not empty. -/
theorem grow_pos (hsome : ranges ≠ []) (hranges : ∀ x ∈ ranges, x.1 ≤ x.2) (w : Window) :
    0 < (grow w ranges).count := by
  rcases List.eq_nil_or_concat ranges with rfl | ⟨before, x, rfl⟩
  · exact absurd rfl hsome
  · have hx := hranges x (by simp)
    simp only [grow, List.concat_eq_append, List.foldl_append, List.foldl_cons, List.foldl_nil,
      extend]
    omega

/-- A window grown from nothing contains all ranges if one which ends last comes
where the start has its final value. -/
theorem grow_contains_iff (hsome : ranges ≠ []) (hranges : ∀ x ∈ ranges, x.1 ≤ x.2 ∧ x.1 ≤ s) :
    (∀ x ∈ ranges, Contains (grow ⟨s, 0⟩ ranges) x) ↔ Reaches ranges := by
  cases ranges with
  | nil => exact absurd rfl hsome
  | cons r more =>
    obtain ⟨hr, hs⟩ := hranges r List.mem_cons_self
    have hgrown : Grown (r :: more) (grow ⟨s, 0⟩ (r :: more)) :=
      grown_grow (grown_single hr hs)
    rw [← hgrown.reaches]
    constructor
    · exact fun h x hx => (h x hx).2
    · exact fun h x hx => ⟨hgrown.least x hx, h x hx⟩

end GrownWindow
