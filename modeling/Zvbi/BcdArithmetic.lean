import Zvbi.PackedDigits
import Zvbi.PageCache

/-!
# Packed decimal numbers

The functions which calculate with packed decimal numbers work on all digits of a word at
once. The bits in which a sum differs from the exclusive or of its operands are the
carries, and the bit above a digit is the carry out of it.
-/

namespace BcdArithmetic
open Finset PackedDigits

def correction (b : BitVec 32) : BitVec 32 :=
  let b := (~~~b &&& 0x11111110#32) >>> 3
  b ||| b * 2#32

/-- `vbi_add_bcd()`. -/
def vbiAddBcd (a b : BitVec 32) : BitVec 32 :=
  let a := a + 0x06666666#32
  let t := a + b
  t - correction (b ^^^ (a ^^^ t))

/-- A bit above digit `i`. -/
def flag (c : Bool) (i : Nat) : BitVec 32 := (BitVec.ofBool c).setWidth 32 <<< (4 * (i + 1))

def flags (c0 c1 c2 c3 c4 c5 c6 : Bool) : BitVec 32 :=
  flag c0 0 ||| flag c1 1 ||| flag c2 2 ||| flag c3 3 ||| flag c4 4 ||| flag c5 5 ||| flag c6 6

theorem and_flags (b : BitVec 32) : b &&& 0x11111110#32 =
    flags (b.getLsbD 4) (b.getLsbD 8) (b.getLsbD 12) (b.getLsbD 16) (b.getLsbD 20)
      (b.getLsbD 24) (b.getLsbD 28) := by
  apply BitVec.eq_of_getLsbD_eq
  intro j hj
  interval_cases j <;> simp [flags, flag]

/-- The digits of a word made of twos and fours where the flags are. -/
theorem flags_toNat : ∀ c0 c1 c2 c3 c4 c5 c6 : Bool,
    (flags c0 c1 c2 c3 c4 c5 c6 >>> 3 ||| flags c0 c1 c2 c3 c4 c5 c6 >>> 3 * 2#32).toNat =
      6 * c0.toNat + 6 * c1.toNat * 16 + 6 * c2.toNat * 16 ^ 2 + 6 * c3.toNat * 16 ^ 3 +
        6 * c4.toNat * 16 ^ 4 + 6 * c5.toNat * 16 ^ 5 + 6 * c6.toNat * 16 ^ 6 := by
  decide +kernel

theorem correction_toNat (b : BitVec 32) : (correction b).toNat =
    ∑ i ∈ range 7, 6 * (!b.getLsbD (4 * (i + 1))).toNat * 16 ^ i := by
  rw [correction, and_flags, flags_toNat]
  simp [sum_range_succ]

variable {i : Nat}

/-- The bit above a digit of `a ^ b ^ (a + b)` is the carry out of the digit. -/
theorem getLsbD_carry (a b : BitVec 32) (hi : i < 7) :
    ((b ^^^ (a ^^^ (a + b))).getLsbD (4 * (i + 1))).toNat =
      carry 16 a.toNat b.toNat (i + 1) := by
  have hpow : (2 : Nat) ^ (4 * (i + 1)) = 16 ^ (i + 1) := by
    rw [Nat.pow_mul]
  rw [BitVec.getLsbD_xor, BitVec.getLsbD_xor, BitVec.getLsbD_add (by omega), BitVec.carry, hpow]
  have hbits : ∀ p q r : Bool, (q ^^ (p ^^ (p ^^ (q ^^ r)))) = r := by
    decide
  rw [hbits, Bool.toNat_false, Nat.add_zero, carry_eq (by decide)]

/-- Seven decimal digits below any other. -/
def IsBcd (w : BitVec 32) : Prop := ∀ i < 7, digit 16 w.toNat i ≤ 9

def decimal (w : BitVec 32) : Nat := ∑ i ∈ range 7, digit 16 w.toNat i * 10 ^ i

theorem digit_word (x : Nat) (hi : i < 8) : digit 16 (x % 2 ^ 32) i = digit 16 x i :=
  digit_mod x hi

theorem digit_six : ∀ i < 8, digit 16 0x06666666 i = if i < 7 then 6 else 0 := by
  decide +kernel

/-- Six more in each digit carry nothing. -/
theorem carry_sixes {a : BitVec 32} (h : IsBcd a) (hi : i ≤ 7) :
    carry 16 a.toNat 0x06666666 i = 0 := by
  induction i with
  | zero => exact carry_zero _ _
  | succ i ih =>
    have hdigit := h i hi
    rw [carry_succ (by decide), ih (Nat.le_of_lt hi), digit_six i (by omega),
      if_pos (Nat.lt_of_succ_le hi)]
    exact Nat.div_eq_of_lt (by omega)

theorem digit_sixes {a : BitVec 32} (h : IsBcd a) (hi : i < 8) :
    digit 16 (a + 0x06666666#32).toNat i = digit 16 a.toNat i + if i < 7 then 6 else 0 := by
  have hlt := @digit_lt 16 (by decide) a.toNat i
  have hword : (0x06666666#32).toNat = 0x06666666 := rfl
  rw [BitVec.toNat_add, hword, digit_word _ hi, digit_add (by decide),
    carry_sixes h (Nat.le_of_lt_succ hi), digit_six i hi]
  refine Nat.mod_eq_of_lt ?_
  split
  · rename_i hlow
    have hdigit := h i hlow
    omega
  · omega

def carries (a b : BitVec 32) (i : Nat) : Nat := carry 16 (a + 0x06666666#32).toNat b.toNat i

def sumDigit (a b : BitVec 32) (i : Nat) : Nat :=
  if i < 7 then
    digit 16 a.toNat i + digit 16 b.toNat i + carries a b i - 10 * carries a b (i + 1)
  else (digit 16 a.toNat i + digit 16 b.toNat i + carries a b i) % 16

section
variable {a b : BitVec 32}

theorem carries_le_one (a b : BitVec 32) (i : Nat) : carries a b i ≤ 1 :=
  carry_le_one (by decide) _ _ _

theorem carries_succ (ha : IsBcd a) (hi : i < 7) : carries a b (i + 1) =
    (digit 16 a.toNat i + 6 + digit 16 b.toNat i + carries a b i) / 16 := by
  rw [carries, carry_succ (by decide), digit_sixes ha (Nat.lt_succ_of_lt hi), if_pos hi, carries]

/-- A carry is propagated into the next digit. -/
theorem sumDigit_column (ha : IsBcd a) (hb : IsBcd b) (hi : i < 7) :
    sumDigit a b i ≤ 9 ∧ digit 16 a.toNat i + digit 16 b.toNat i + carries a b i =
      sumDigit a b i + 10 * carries a b (i + 1) := by
  have hcarry := carries_succ (b := b) ha hi
  have hone := carries_le_one a b i
  have hda := ha i hi
  have hdb := hb i hi
  rw [sumDigit, if_pos hi]
  omega

/-- The digits of the binary sum are those of the decimal sum, and six more if there is no
carry. -/
theorem digit_binary (ha : IsBcd a) (hb : IsBcd b) (hi : i < 8) :
    digit 16 (a + 0x06666666#32 + b).toNat i =
      sumDigit a b i + if i < 7 then 6 * (1 - carries a b (i + 1)) else 0 := by
  rw [BitVec.toNat_add, digit_word _ hi, digit_add (by decide), digit_sixes ha hi, ← carries]
  by_cases hlow : i < 7
  · have hcarry := carries_succ (b := b) ha hlow
    have hone := carries_le_one a b i
    have hda := ha i hlow
    have hdb := hb i hlow
    rw [if_pos hlow, if_pos hlow, sumDigit, if_pos hlow]
    omega
  · rw [if_neg hlow, if_neg hlow, sumDigit, if_neg hlow, Nat.add_zero, Nat.add_zero]

theorem sumDigit_lt (ha : IsBcd a) (hb : IsBcd b) (i : Nat) : sumDigit a b i < 16 := by
  by_cases hi : i < 7
  · have hdigit := (sumDigit_column ha hb hi).1
    omega
  · rw [sumDigit, if_neg hi]
    exact Nat.mod_lt _ (by decide)

theorem correction_carries (a b : BitVec 32) :
    (correction (b ^^^ ((a + 0x06666666#32) ^^^ (a + 0x06666666#32 + b)))).toNat =
      ∑ i ∈ range 7, 6 * (1 - carries a b (i + 1)) * 16 ^ i := by
  rw [correction_toNat]
  refine sum_congr rfl fun i hi => ?_
  have hbit := getLsbD_carry (a + 0x06666666#32) b (mem_range.mp hi)
  rw [carries, ← hbit]
  generalize (b ^^^ ((a + 0x06666666#32) ^^^ (a + 0x06666666#32 + b))).getLsbD (4 * (i + 1)) = c
  cases c
  · rfl
  · rfl

theorem vbiAddBcd_toNat (ha : IsBcd a) (hb : IsBcd b) :
    (vbiAddBcd a b).toNat = ∑ i ∈ range 8, sumDigit a b i * 16 ^ i := by
  have hbinary : (a + 0x06666666#32 + b).toNat = ∑ i ∈ range 8, sumDigit a b i * 16 ^ i +
      ∑ i ∈ range 7, 6 * (1 - carries a b (i + 1)) * 16 ^ i := by
    have hword : (a + 0x06666666#32 + b).toNat =
        ∑ i ∈ range 8, digit 16 (a + 0x06666666#32 + b).toNat i * 16 ^ i := by
      rw [sum_digit]
      exact (Nat.mod_eq_of_lt (BitVec.isLt _)).symm
    have hdigits : ∀ i ∈ range 8, digit 16 (a + 0x06666666#32 + b).toNat i * 16 ^ i =
        sumDigit a b i * 16 ^ i +
          (if i < 7 then 6 * (1 - carries a b (i + 1)) else 0) * 16 ^ i := by
      intro i hi
      rw [digit_binary ha hb (mem_range.mp hi), Nat.add_mul]
    have hlow : ∀ i ∈ range 7, (if i < 7 then 6 * (1 - carries a b (i + 1)) else 0) * 16 ^ i =
        6 * (1 - carries a b (i + 1)) * 16 ^ i := by
      intro i hi
      rw [if_pos (mem_range.mp hi)]
    rw [hword, sum_congr rfl hdigits, sum_add_distrib, sum_range_succ _ 7,
      sum_range_succ (fun i => (if i < 7 then 6 * (1 - carries a b (i + 1)) else 0) * 16 ^ i) 7,
      if_neg (Nat.lt_irrefl 7), Nat.zero_mul, Nat.add_zero, sum_congr rfl hlow]
  have hlt := BitVec.isLt (a + 0x06666666#32 + b)
  have hsub : vbiAddBcd a b = a + 0x06666666#32 + b -
      correction (b ^^^ ((a + 0x06666666#32) ^^^ (a + 0x06666666#32 + b))) := rfl
  rw [hsub, BitVec.toNat_sub, correction_carries]
  omega

theorem digit_vbiAddBcd (ha : IsBcd a) (hb : IsBcd b) (hi : i < 8) :
    digit 16 (vbiAddBcd a b).toNat i = sumDigit a b i := by
  rw [vbiAddBcd_toNat ha hb]
  exact digit_sum (by decide) (fun i _ => sumDigit_lt ha hb i) hi

structure TensComplement (w : BitVec 32) : Prop where
  digits : IsBcd w
  sign : digit 16 w.toNat 7 = 0 ∨ digit 16 w.toNat 7 = 15

def signed (w : BitVec 32) : Int :=
  if digit 16 w.toNat 7 = 15 then decimal w - 10 ^ 7 else decimal w

/-- The sum of two numbers by schoolbook addition. The word is the 10's complement of the
result if that is in range. -/
structure IsSum (a b r : BitVec 32) : Prop where
  digits : IsBcd r
  columns : ∃ c, (∀ i, c i ≤ 1) ∧
    Adds 10 7 (digit 16 a.toNat) (digit 16 b.toNat) c (digit 16 r.toNat)
  value : decimal r = (decimal a + decimal b) % 10 ^ 7
  inRange : TensComplement a → TensComplement b → -10 ^ 7 ≤ signed a + signed b →
    signed a + signed b < 10 ^ 7 → TensComplement r ∧ signed r = signed a + signed b

theorem vbiAddBcd_isSum (ha : IsBcd a) (hb : IsBcd b) : IsSum a b (vbiAddBcd a b) := by
  have hdigit : ∀ i < 7, digit 16 (vbiAddBcd a b).toNat i = sumDigit a b i :=
    fun i hi => digit_vbiAddBcd ha hb (Nat.lt_succ_of_lt hi)
  have hbcd : IsBcd (vbiAddBcd a b) := by
    intro i hi
    rw [hdigit i hi]
    exact (sumDigit_column ha hb hi).1
  have hadds : Adds 10 7 (digit 16 a.toNat) (digit 16 b.toNat) (carries a b)
      (digit 16 (vbiAddBcd a b).toNat) := by
    refine ⟨carry_zero _ _, fun i hi => ?_⟩
    rw [hdigit i hi]
    exact (sumDigit_column ha hb hi).2
  have hsum := hadds.sum
  have hlt : ∀ w, IsBcd w → decimal w < 10 ^ 7 :=
    fun w hw => sum_lt fun i hi => Nat.lt_succ_of_le (hw i hi)
  refine ⟨hbcd, ⟨carries a b, carries_le_one a b, hadds⟩, ?_, ?_⟩
  · exact (hadds.mod fun i hi => Nat.lt_succ_of_le (hbcd i hi)).symm
  · intro hca hcb hlow hhigh
    have hda := hlt a ha
    have hdb := hlt b hb
    have hdr := hlt _ hbcd
    have hone := carries_le_one a b 7
    have htop := digit_vbiAddBcd ha hb (Nat.lt_succ_self 7)
    rw [sumDigit, if_neg (Nat.lt_irrefl 7)] at htop
    change decimal a + decimal b = decimal (vbiAddBcd a b) + carries a b 7 * 10 ^ 7 at hsum
    have hsign : digit 16 (vbiAddBcd a b).toNat 7 = 0 ∨ digit 16 (vbiAddBcd a b).toNat 7 = 15 := by
      rw [signed, signed] at hlow hhigh
      have hsa := hca.sign
      have hsb := hcb.sign
      split at hlow <;> split at hlow <;> omega
    refine ⟨⟨hbcd, hsign⟩, ?_⟩
    rw [signed, signed] at hlow hhigh
    rw [signed, signed, signed]
    have hsa := hca.sign
    have hsb := hcb.sign
    split at hlow <;> split at hlow <;> split <;> omega

end

theorem testBit_digit (x j : Nat) : x.testBit (4 * j) = decide (digit 16 x j % 2 = 1) := by
  have hpow : (2 : Nat) ^ (4 * j) = 16 ^ j := by
    rw [Nat.pow_mul]
  rw [Nat.testBit_eq_decide_div_mod_eq, hpow, digit, Nat.mod_mod_of_dvd _ (by decide)]

/-- The bits in which a sum differs from its operands are the carries. -/
theorem testBit_carry (x y j : Nat) :
    ((x + y) ^^^ y ^^^ x).testBit (4 * j) = decide (carry 16 x y j = 1) := by
  have hone := @carry_le_one 16 (by decide) x y j
  rw [Nat.testBit_xor, Nat.testBit_xor, testBit_digit, testBit_digit, testBit_digit,
    digit_add (by decide)]
  generalize digit 16 x j = dx, digit 16 y j = dy, carry 16 x y j = c at *
  have hsum : (dx + dy + c) % 16 % 2 = (dx % 2 + dy % 2 + c) % 2 := by omega
  rw [hsum]
  rcases Nat.mod_two_eq_zero_or_one dx with hx | hx
  all_goals
    rcases Nat.mod_two_eq_zero_or_one dy with hy | hy
    all_goals
      rcases Nat.le_one_iff_eq_zero_or_eq_one.mp hone with rfl | rfl
      all_goals
        rw [hx, hy]
        rfl

theorem and_flags_ne_zero (x : Nat) :
    x &&& 0x11111110 ≠ 0 ↔ ∃ i < 7, x.testBit (4 * (i + 1)) = true := by
  constructor
  · intro h
    obtain ⟨j, hj⟩ := Nat.exists_testBit_of_ne_zero h
    rw [Nat.testBit_and, Bool.and_eq_true] at hj
    have hlow : j < 32 := by
      by_contra hhigh
      have hbig : 0x11111110 < 2 ^ j :=
        Nat.lt_of_lt_of_le (by decide : 0x11111110 < 2 ^ 32)
          (Nat.pow_le_pow_right (by decide) (Nat.not_lt.mp hhigh))
      rw [Nat.testBit_lt_two_pow hbig] at hj
      exact Bool.false_ne_true hj.2
    have hflags : ∀ j < 32, (0x11111110 : Nat).testBit j = true → j % 4 = 0 ∧ 4 ≤ j := by
      decide +kernel
    obtain ⟨hmod, hfour⟩ := hflags j hlow hj.2
    refine ⟨j / 4 - 1, by omega, ?_⟩
    have hindex : 4 * (j / 4 - 1 + 1) = j := by omega
    rw [hindex]
    exact hj.1
  · rintro ⟨i, hi, hbit⟩ hzero
    have hflags : ∀ i < 7, (0x11111110 : Nat).testBit (4 * (i + 1)) = true := by
      decide +kernel
    have hand := Nat.testBit_and x 0x11111110 (4 * (i + 1))
    rw [hzero, hbit, hflags i hi, Nat.zero_testBit] at hand
    exact Bool.false_ne_true hand

theorem digit_complement {x : Nat} (h : x < 2 ^ 32) (hi : i < 8) :
    digit 16 (x ^^^ 0xFFFFFFFF) i = 15 - digit 16 x i := by
  have hcomplement : x ^^^ 0xFFFFFFFF = 2 ^ 32 - (x + 1) := by
    apply Nat.eq_of_testBit_eq
    intro j
    have hones : (0xFFFFFFFF : Nat).testBit j = decide (j < 32) :=
      @Nat.testBit_two_pow_sub_one 32 j
    rw [Nat.testBit_xor, hones, Nat.testBit_two_pow_sub_succ h]
    by_cases hj : j < 32
    · rw [decide_eq_true hj, Bool.xor_true, Bool.true_and]
    · have hbig : x < 2 ^ j :=
        Nat.lt_of_lt_of_le h (Nat.pow_le_pow_right (by decide) (Nat.not_lt.mp hj))
      rw [decide_eq_false hj, Nat.testBit_lt_two_pow hbig]
      rfl
  have hsum : x + (x ^^^ 0xFFFFFFFF) = 0xFFFFFFFF := by
    omega
  have hones : ∀ i < 8, digit 16 0xFFFFFFFF i = 15 := by
    decide +kernel
  have hlt : ∀ x i, digit 16 x i < 16 := digit_lt (by decide)
  have hcolumn : ∀ i < 8, carry 16 x (x ^^^ 0xFFFFFFFF) i = 0 →
      digit 16 x i + digit 16 (x ^^^ 0xFFFFFFFF) i = 15 := by
    intro i hi hcarry
    have hdigit := @digit_add 16 (by decide) x (x ^^^ 0xFFFFFFFF) i
    have hx := hlt x i
    have hy := hlt (x ^^^ 0xFFFFFFFF) i
    rw [hsum, hones i hi, hcarry] at hdigit
    omega
  have hcarry : ∀ i < 8, carry 16 x (x ^^^ 0xFFFFFFFF) i = 0 := by
    intro i hi
    induction i with
    | zero => exact carry_zero _ _
    | succ i ih =>
      have hbelow := ih (Nat.lt_of_succ_lt hi)
      have hdigits := hcolumn i (Nat.lt_of_succ_lt hi) hbelow
      rw [carry_succ (by decide), hbelow, hdigits]
  have hdigits := hcolumn i hi (hcarry i hi)
  omega

theorem vbiBcdDigitsGreater_iff {bcd maximum : Nat} (hmax : maximum < 2 ^ 32) :
    PageCache.vbiBcdDigitsGreater bcd maximum = true ↔
      ∃ i < 7, digit 16 maximum i < digit 16 bcd i := by
  have hcolumn : ∀ i < 7, carry 16 (maximum ^^^ 0xFFFFFFFF) bcd (i + 1) =
      (15 - digit 16 maximum i + digit 16 bcd i +
        carry 16 (maximum ^^^ 0xFFFFFFFF) bcd i) / 16 := by
    intro i hi
    rw [carry_succ (by decide), digit_complement hmax (Nat.lt_succ_of_lt hi)]
  have hlt : ∀ x i, digit 16 x i < 16 := digit_lt (by decide)
  have htest : PageCache.vbiBcdDigitsGreater bcd maximum = true ↔
      ∃ i < 7, carry 16 (maximum ^^^ 0xFFFFFFFF) bcd (i + 1) = 1 := by
    rw [PageCache.vbiBcdDigitsGreater, bne_iff_ne, and_flags_ne_zero]
    simp only [testBit_carry, decide_eq_true_eq]
  rw [htest]
  constructor
  · rintro ⟨i, hi, hcarry⟩
    -- the lowest digit with a carry got none itself
    induction i with
    | zero =>
      have h0 := hcolumn 0 hi
      have hm := hlt maximum 0
      rw [hcarry, carry_zero] at h0
      exact ⟨0, hi, by omega⟩
    | succ i ih =>
      by_cases hbelow : carry 16 (maximum ^^^ 0xFFFFFFFF) bcd (i + 1) = 1
      · exact ih (Nat.lt_of_succ_lt hi) hbelow
      · have hone := @carry_le_one 16 (by decide) (maximum ^^^ 0xFFFFFFFF) bcd (i + 1)
        have hnext := hcolumn (i + 1) hi
        have hm := hlt maximum (i + 1)
        exact ⟨i + 1, hi, by omega⟩
  · rintro ⟨i, hi, hgreater⟩
    have hone := @carry_le_one 16 (by decide) (maximum ^^^ 0xFFFFFFFF) bcd (i + 1)
    have hnext := hcolumn i hi
    have hm := hlt maximum i
    exact ⟨i, hi, by omega⟩

theorem vbiIsBcd_iff (w : BitVec 32) : PageCache.vbiIsBcd w.toNat = true ↔ IsBcd w := by
  have hlt : ∀ x i, digit 16 x i < 16 := digit_lt (by decide)
  have htest : PageCache.vbiIsBcd w.toNat = true ↔
      ¬ ∃ i < 7, carry 16 0x06666666 w.toNat (i + 1) = 1 := by
    rw [PageCache.vbiIsBcd, beq_iff_eq, ← Nat.xor_assoc, ← not_iff_not, not_not, ← Ne,
      and_flags_ne_zero]
    simp only [testBit_carry, decide_eq_true_eq]
  have hcolumn : ∀ i < 7, carry 16 0x06666666 w.toNat (i + 1) =
      (6 + digit 16 w.toNat i + carry 16 0x06666666 w.toNat i) / 16 := by
    intro i hi
    rw [carry_succ (by decide), digit_six i (by omega), if_pos hi]
  rw [htest]
  constructor
  · intro hnone i hi
    by_contra hlarge
    have hnext := hcolumn i hi
    have hone := @carry_le_one 16 (by decide) 0x06666666 w.toNat (i + 1)
    have hdigit := hlt w.toNat i
    exact hnone ⟨i, hi, by omega⟩
  · rintro hbcd ⟨i, hi, hcarry⟩
    have hnone : ∀ i ≤ 7, carry 16 0x06666666 w.toNat i = 0 := by
      intro i hi
      induction i with
      | zero => exact carry_zero _ _
      | succ i ih =>
        have hdigit := hbcd i hi
        rw [hcolumn i hi, ih (Nat.le_of_lt hi)]
        omega
    rw [hnone (i + 1) hi] at hcarry
    omega

/-- Sums are right in seven digits, and in 10's complement if they are in range. Numbers are
compared by their seven digits. -/
theorem bcd_arithmetic {a b : BitVec 32} (ha : PageCache.vbiIsBcd a.toNat = true)
    (hb : PageCache.vbiIsBcd b.toNat = true) (bcd maximum : BitVec 32) :
    IsSum a b (vbiAddBcd a b) ∧
      (PageCache.vbiBcdDigitsGreater bcd.toNat maximum.toNat = true ↔
        ∃ i < 7, digit 16 maximum.toNat i < digit 16 bcd.toNat i) :=
  ⟨vbiAddBcd_isSum ((vbiIsBcd_iff a).mp ha) ((vbiIsBcd_iff b).mp hb),
    vbiBcdDigitsGreater_iff maximum.isLt⟩

theorem bcd_arithmetic_minus_one :
    IsSum 0x01000000#32 0xF9999999#32 0x00999999#32 ∧
      (PageCache.vbiBcdDigitsGreater 0x1260 0x2959 = true ↔
        ∃ i < 7, digit 16 0x2959 i < digit 16 0x1260 i) :=
  @bcd_arithmetic 0x01000000#32 0xF9999999#32 (by decide +kernel) (by decide +kernel) 0x1260#32
    0x2959#32

/-- A sum of eight digits is not reduced to the seven digits of zero. -/
theorem vbiAddBcd_eight_digits :
    IsBcd 0x09999999#32 ∧ IsBcd 0x00000001#32 ∧
      (decimal 0x09999999#32 + decimal 0x00000001#32) % 10 ^ 7 = 0 ∧
      vbiAddBcd 0x09999999#32 0x00000001#32 = 0x10000000#32 := by
  refine ⟨(vbiIsBcd_iff _).mp (by decide +kernel), (vbiIsBcd_iff _).mp (by decide +kernel), ?_, ?_⟩
  · decide +kernel
  · decide +kernel

end BcdArithmetic
