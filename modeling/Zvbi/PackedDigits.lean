import Mathlib.Algebra.BigOperators.Intervals
import Mathlib.Algebra.BigOperators.Ring.Finset
import Mathlib.Data.Nat.Bitwise
import Mathlib.Tactic.Ring

/-!
# Digits of numbers

The digits of a number in any base, what a sum carries from digit to digit, and
schoolbook addition, which relates the digits of two numbers to those of a result by a
sequence of carries.
-/

namespace PackedDigits
open Finset

/-- Digit `i` of a number. -/
def digit (B x i : Nat) : Nat := x / B ^ i % B

/-- What the digits below `i` carry into it. -/
def carry (B x y i : Nat) : Nat := (x % B ^ i + y % B ^ i) / B ^ i

variable {B : Nat}

theorem digit_lt (hB : 0 < B) (x i : Nat) : digit B x i < B := Nat.mod_lt _ hB

@[simp] theorem carry_zero (x y : Nat) : carry B x y 0 = 0 := by
  rw [carry, Nat.pow_zero, Nat.mod_one, Nat.mod_one]

theorem carry_le_one (hB : 0 < B) (x y i : Nat) : carry B x y i ≤ 1 := by
  have hpow : 0 < B ^ i := Nat.pow_pos hB
  have hx := Nat.mod_lt x hpow
  have hy := Nat.mod_lt y hpow
  rw [carry, ← Nat.lt_succ_iff, Nat.div_lt_iff_lt_mul hpow]
  omega

/-- There is a carry if the digits below make up a power of the base. -/
theorem carry_eq (hB : 0 < B) (x y i : Nat) :
    carry B x y i = (decide (B ^ i ≤ x % B ^ i + y % B ^ i)).toNat := by
  have hpow : 0 < B ^ i := Nat.pow_pos hB
  have hone := carry_le_one hB x y i
  by_cases h : B ^ i ≤ x % B ^ i + y % B ^ i
  · have hpos : 0 < carry B x y i := Nat.div_pos h hpow
    rw [decide_eq_true h, Bool.toNat_true]
    omega
  · rw [decide_eq_false h, Bool.toNat_false, carry, Nat.div_eq_of_lt (Nat.not_le.mp h)]

theorem div_add_carry (hB : 0 < B) (x y i : Nat) :
    (x + y) / B ^ i = x / B ^ i + y / B ^ i + carry B x y i := by
  have hpow : 0 < B ^ i := Nat.pow_pos hB
  have hsplit : x + y =
      (x % B ^ i + y % B ^ i) + B ^ i * (x / B ^ i + y / B ^ i) := by
    have hx := Nat.mod_add_div x (B ^ i)
    have hy := Nat.mod_add_div y (B ^ i)
    rw [Nat.mul_add]
    omega
  rw [carry, hsplit, Nat.add_mul_div_left _ _ hpow, Nat.add_comm]

variable {i n b : Nat} {f c g r : Nat → Nat}

theorem digit_mod (x : Nat) (hi : i < n) : digit B (x % B ^ n) i = digit B x i := by
  obtain ⟨k, rfl⟩ := Nat.exists_eq_add_of_lt hi
  rw [digit, digit, Nat.add_assoc, Nat.pow_add, Nat.mod_mul_right_div_self, Nat.pow_succ,
    Nat.mod_mul_left_mod]

theorem digit_add (hB : 0 < B) (x y i : Nat) :
    digit B (x + y) i = (digit B x i + digit B y i + carry B x y i) % B := by
  rw [digit, div_add_carry hB, Nat.add_mod, Nat.add_mod (x / B ^ i), ← digit, ← digit,
    Nat.mod_add_mod, Nat.add_mod_mod]

/-- What a digit carries into the next one. -/
theorem carry_succ (hB : 0 < B) (x y i : Nat) :
    carry B x y (i + 1) = (digit B x i + digit B y i + carry B x y i) / B := by
  have hpow : 0 < B ^ i := Nat.pow_pos hB
  rw [carry, Nat.mod_pow_succ, Nat.mod_pow_succ, Nat.pow_succ, ← Nat.div_div_eq_div_mul]
  have hsplit : x % B ^ i + B ^ i * (x / B ^ i % B) + (y % B ^ i + B ^ i * (y / B ^ i % B)) =
      x % B ^ i + y % B ^ i + B ^ i * (x / B ^ i % B + y / B ^ i % B) := by
    ring
  rw [hsplit, Nat.add_mul_div_left _ _ hpow, Nat.add_comm, carry, digit, digit]

/-- The low digits make up the number modulo a power of the base. -/
theorem sum_digit (B x n : Nat) : ∑ i ∈ range n, digit B x i * B ^ i = x % B ^ n := by
  induction n with
  | zero => rw [sum_range_zero, Nat.pow_zero, Nat.mod_one]
  | succ n ih => rw [sum_range_succ, ih, Nat.mod_pow_succ, digit, Nat.mul_comm]

theorem sum_lt (hf : ∀ i < n, f i < B) : ∑ i ∈ range n, f i * B ^ i < B ^ n := by
  induction n with
  | zero => exact Nat.one_pos
  | succ n ih =>
    have hlow := ih fun i hi => hf i (Nat.lt_succ_of_lt hi)
    have hhigh := Nat.mul_le_mul_right (B ^ n) (hf n (Nat.lt_succ_self n))
    rw [sum_range_succ, Nat.pow_succ, Nat.mul_comm (B ^ n)]
    rw [Nat.succ_mul] at hhigh
    omega

theorem digit_sum (hB : 0 < B) (hf : ∀ i < n, f i < B) (hi : i < n) :
    digit B (∑ j ∈ range n, f j * B ^ j) i = f i := by
  obtain ⟨k, rfl⟩ := Nat.exists_eq_add_of_lt hi
  have hlow := sum_lt (fun j hj => hf j (by omega) : ∀ j < i, f j < B)
  have hhigh : ∑ j ∈ range k, f (i + (1 + j)) * B ^ (i + (1 + j)) =
      B ^ i * (B * ∑ j ∈ range k, f (i + (1 + j)) * B ^ j) := by
    rw [mul_sum, mul_sum]
    refine sum_congr rfl fun j _ => ?_
    ring
  have hsum : ∑ j ∈ range (i + k + 1), f j * B ^ j =
      ∑ j ∈ range i, f j * B ^ j +
        B ^ i * (f i + B * ∑ j ∈ range k, f (i + (1 + j)) * B ^ j) := by
    rw [Nat.add_assoc, Nat.add_comm k, sum_range_add, sum_range_add, sum_range_one, hhigh]
    rw [Nat.add_zero]
    ring
  rw [digit, hsum, Nat.add_mul_div_left _ _ (Nat.pow_pos hB), Nat.div_eq_of_lt hlow,
    Nat.zero_add, Nat.add_mul_mod_self_left, Nat.mod_eq_of_lt (hf i hi)]

/-- Schoolbook addition: the digits of two numbers and the carry into a digit give a digit of
the result and the carry out of it. -/
structure Adds (b n : Nat) (f g c r : Nat → Nat) : Prop where
  start : c 0 = 0
  column : ∀ i < n, f i + g i + c i = r i + b * c (i + 1)

theorem Adds.sum (h : Adds b n f g c r) :
    ∑ i ∈ range n, f i * b ^ i + ∑ i ∈ range n, g i * b ^ i =
      ∑ i ∈ range n, r i * b ^ i + c n * b ^ n := by
  obtain ⟨hstart, hcolumn⟩ := h
  induction n with
  | zero => rw [sum_range_zero, sum_range_zero, sum_range_zero, hstart, Nat.zero_mul]
  | succ n ih =>
    have hlow := ih fun i hi => hcolumn i (Nat.lt_succ_of_lt hi)
    have hn := congrArg (· * b ^ n) (hcolumn n (Nat.lt_succ_self n))
    simp only [Nat.add_mul] at hn
    rw [sum_range_succ, sum_range_succ, sum_range_succ, Nat.pow_succ, ← Nat.mul_assoc,
      Nat.mul_right_comm, Nat.mul_comm (c (n + 1)) b]
    omega

/-- The result of a schoolbook addition without its last carry. -/
theorem Adds.mod (h : Adds b n f g c r) (hr : ∀ i < n, r i < b) :
    (∑ i ∈ range n, f i * b ^ i + ∑ i ∈ range n, g i * b ^ i) % b ^ n =
      ∑ i ∈ range n, r i * b ^ i := by
  rw [h.sum, Nat.add_mul_mod_self_right, Nat.mod_eq_of_lt (sum_lt hr)]

end PackedDigits
