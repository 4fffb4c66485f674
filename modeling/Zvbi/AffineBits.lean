import Mathlib.Data.Nat.Bitwise

/-!
# Affine maps of bits

A map of binary words is affine if it commutes with the exclusive or up to its value at zero.
Such a map is determined by this value and by its values at single bits.
-/

namespace AffineBits

def Affine (f : Nat → Nat) : Prop := ∀ x y, f (x ^^^ y) = f x ^^^ f y ^^^ f 0

variable {f g : Nat → Nat}

theorem affine_id : Affine fun x => x := fun _ _ => (Nat.xor_zero _).symm

theorem affine_const (k : Nat) : Affine fun _ => k := by
  intro _ _
  rw [Nat.xor_self, Nat.zero_xor]

theorem Affine.comp (hg : Affine g) (hf : Affine f) : Affine fun x => g (f x) := by
  intro x y
  dsimp only
  rw [hf, hg, hg, Nat.xor_assoc (g (f x) ^^^ g (f y)), Nat.xor_comm (g 0), ← Nat.xor_assoc,
    Nat.xor_assoc _ (g 0), Nat.xor_self, Nat.xor_zero]

theorem Affine.xor (hf : Affine f) (hg : Affine g) : Affine fun x => f x ^^^ g x := by
  intro x y
  dsimp only
  rw [hf, hg]
  ac_rfl

theorem Affine.and (hf : Affine f) (k : Nat) : Affine fun x => f x &&& k := by
  intro x y
  dsimp only
  rw [hf, Nat.and_xor_distrib_right, Nat.and_xor_distrib_right]

theorem Affine.shiftLeft (hf : Affine f) (k : Nat) : Affine fun x => f x <<< k := by
  intro x y
  dsimp only
  rw [hf, Nat.shiftLeft_xor_distrib, Nat.shiftLeft_xor_distrib]

theorem Affine.shiftRight (hf : Affine f) (k : Nat) : Affine fun x => f x >>> k := by
  intro x y
  dsimp only
  rw [hf, Nat.shiftRight_xor_distrib, Nat.shiftRight_xor_distrib]

/-- The exclusive or of the columns selected by the low bits of a word. -/
def combine : List Nat → Nat → Nat
  | [], _ => 0
  | column :: columns, x => (if x % 2 = 1 then column else 0) ^^^ combine columns (x >>> 1)

theorem affine_combine (columns : List Nat) : Affine (combine columns) := by
  induction columns with
  | nil => exact affine_const 0
  | cons column columns ih =>
    refine Affine.xor (fun x y => ?_) (ih.comp (affine_id.shiftRight 1))
    rcases Nat.mod_two_eq_zero_or_one x with hx | hx <;>
      rcases Nat.mod_two_eq_zero_or_one y with hy | hy <;>
        simp [hx, hy, Nat.xor_mod_two_eq, Nat.add_mod]

theorem combine_zero (columns : List Nat) : combine columns 0 = 0 := by
  induction columns with
  | nil => rfl
  | cons column columns ih => exact (Nat.zero_xor _).trans ih

theorem combine_xor (columns : List Nat) (x y : Nat) :
    combine columns (x ^^^ y) = combine columns x ^^^ combine columns y := by
  rw [affine_combine columns x y, combine_zero, Nat.xor_zero]

theorem or_eq_xor {a b : Nat} (h : a &&& b = 0) : a ||| b = a ^^^ b := by
  apply Nat.eq_of_testBit_eq
  intro i
  have hi : (a.testBit i && b.testBit i) = false := by
    rw [← Nat.testBit_and, h, Nat.zero_testBit]
  rw [Nat.testBit_or, Nat.testBit_xor]
  cases ha : a.testBit i <;> cases hb : b.testBit i <;> simp_all

theorem and_masks {m n : Nat} (h : m &&& n = 0) (a b : Nat) : (a &&& m) &&& (b &&& n) = 0 := by
  have hmasks : (a &&& m) &&& (b &&& n) = (a &&& b) &&& (m &&& n) := by ac_rfl
  rw [hmasks, h, Nat.and_zero]

/-- Affine maps which agree on zero and on single bits agree on the words of these bits. -/
theorem Affine.eq_of_bits (hf : Affine f) (hg : Affine g) {n : Nat} (hzero : f 0 = g 0)
    (h : ∀ i < n, f (2 ^ i) = g (2 ^ i)) : ∀ x < 2 ^ n, f x = g x := by
  induction n with
  | zero =>
    intro x hx
    rw [Nat.lt_one_iff.mp hx, hzero]
  | succ n ih =>
    intro x hx
    have hlow : ∀ y, (∀ i, n ≤ i → y.testBit i = false) → f y = g y := fun y hy =>
      ih (fun i hi => h i (Nat.lt_succ_of_lt hi)) y (Nat.lt_pow_two_of_testBit y hy)
    have hhigh : ∀ i, n < i → x.testBit i = false := fun i hi =>
      Nat.testBit_lt_two_pow (hx.trans_le (Nat.pow_le_pow_right (by decide) hi))
    cases hbit : x.testBit n with
    | false =>
      apply hlow
      intro i hi
      rcases hi.eq_or_lt with rfl | hi
      · exact hbit
      · exact hhigh i hi
    | true =>
      have hrest : f (x ^^^ 2 ^ n) = g (x ^^^ 2 ^ n) := by
        apply hlow
        intro i hi
        rw [Nat.testBit_xor, Nat.testBit_two_pow]
        rcases hi.eq_or_lt with rfl | hi
        · simp [hbit]
        · simp [hhigh i hi, hi.ne]
      have hx : x = (x ^^^ 2 ^ n) ^^^ 2 ^ n := by
        rw [Nat.xor_assoc, Nat.xor_self, Nat.xor_zero]
      rw [hx, hf, hg, hrest, h n (Nat.lt_succ_self n), hzero]

/-- A table holds a map if its elements are the values of the map in order. -/
theorem table_get {n : Nat} {t : Vector UInt8 n} (h : t.toList.map UInt8.toNat = (List.range n).map f)
    (i : Fin n) : (t.get i).toNat = f i := by
  have hi := congrArg (·[i.val]?) h
  have hget : t[i.val].toNat = f i := by simpa using hi
  exact hget

end AffineBits
