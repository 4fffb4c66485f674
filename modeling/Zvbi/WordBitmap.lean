import Mathlib.Algebra.Ring.Nat
import Mathlib.Data.List.Basic
import Mathlib.Data.List.Nodup

/-!
# Sets of numbers as bits of a vector of words

Bit `i` is bit `i % w` of word `i / w`. A range of bits is changed with a mask
in its first and its last word and as a whole in the words between them. The
results here describe such changes bit by bit.
-/

namespace WordBitmap

variable {w n : Nat}

def word (words : Vector (BitVec w) n) (o : Nat) : BitVec w := words[o]?.getD 0

def bit (words : Vector (BitVec w) n) (i : Nat) : Bool := (word words (i / w)).getLsbD (i % w)

/-- Replace word `o`. -/
def setWord (words : Vector (BitVec w) n) (o : Nat) (x : BitVec w) : Vector (BitVec w) n :=
  words.setIfInBounds o x

variable {o i k : Nat}

theorem word_setWord (words : Vector (BitVec w) n) (h : o < n) (x : BitVec w) (k : Nat) :
    word (setWord words o x) k = if k = o then x else word words k := by
  simp only [word, setWord, Vector.getElem?_setIfInBounds]
  by_cases hk : o = k
  · subst hk
    simp [h]
  · have hne : ¬ k = o := fun he => hk he.symm
    rw [if_neg hk, if_neg hne]

/-- Bits `k` and above. -/
def maskFrom (w k : Nat) : BitVec w := BitVec.allOnes w <<< k

/-- Bits `k` and below. -/
def maskUpTo (w k : Nat) : BitVec w := ~~~(BitVec.allOnes w <<< (k + 1))

theorem getLsbD_maskFrom (h : i < w) : (maskFrom w k).getLsbD i = decide (k ≤ i) := by
  rw [maskFrom, BitVec.getLsbD_shiftLeft, BitVec.getLsbD_allOnes]
  by_cases hk : k ≤ i
  · have hlt : i - k < w := by omega
    simp [h, hk, hlt]
  · have hlt : i < k := by omega
    simp [hk, hlt]

theorem getLsbD_maskUpTo (h : i < w) : (maskUpTo w k).getLsbD i = decide (i ≤ k) := by
  have hfrom : (BitVec.allOnes w <<< (k + 1)).getLsbD i = decide (k + 1 ≤ i) :=
    getLsbD_maskFrom h
  rw [maskUpTo, BitVec.getLsbD_not, hfrom]
  by_cases hk : i ≤ k
  · have hnot : ¬ k + 1 ≤ i := by omega
    simp [h, hk, hnot]
  · have hlt : k + 1 ≤ i := by omega
    simp [hk, hlt]

theorem getLsbD_one_shiftLeft (h : k < w) : (1#w <<< i).getLsbD k = decide (k = i) := by
  rw [BitVec.getLsbD_shiftLeft, BitVec.getLsbD_one]
  by_cases hik : k = i
  · subst hik
    have hw : 0 < w := by omega
    simp [h, hw]
  · by_cases hlt : k < i
    · simp [hlt, hik]
    · have hpos : ¬ k - i = 0 := by omega
      simp [hpos, hik]

theorem and_one_shiftLeft_ne_zero {x : BitVec w} (h : i < w) :
    x &&& (1#w <<< i) ≠ 0#w ↔ x.getLsbD i = true := by
  constructor
  · intro hne
    by_contra hbit
    apply hne
    apply BitVec.eq_of_getLsbD_eq
    intro k hk
    rw [BitVec.getLsbD_and, getLsbD_one_shiftLeft hk, BitVec.getLsbD_zero]
    by_cases hik : k = i
    · subst hik
      rw [Bool.eq_false_iff.mpr hbit, Bool.false_and]
    · rw [decide_eq_false hik, Bool.and_false]
  · intro hbit hzero
    have hi : (x &&& (1#w <<< i)).getLsbD i = (0#w).getLsbD i := by rw [hzero]
    rw [BitVec.getLsbD_and, getLsbD_one_shiftLeft h, hbit, BitVec.getLsbD_zero] at hi
    simp at hi

/-- Change `count` words from word `first` on. -/
def changeWords (f : BitVec w → BitVec w) (words : Vector (BitVec w) n) (first count : Nat) :
    Vector (BitVec w) n :=
  (List.range' first count).foldl (fun ws o => setWord ws o (f (word ws o))) words

theorem word_changeWords (f : BitVec w → BitVec w) (words : Vector (BitVec w) n)
    {first count : Nat} (h : first + count ≤ n) (k : Nat) :
    word (changeWords f words first count) k =
      if first ≤ k ∧ k < first + count then f (word words k) else word words k := by
  induction count generalizing first words with
  | zero =>
    rw [if_neg (by omega)]
    rfl
  | succ count ih =>
    have hstep : changeWords f words first (count + 1) =
        changeWords f (setWord words first (f (word words first))) (first + 1) count := rfl
    rw [hstep, ih _ (by omega), word_setWord words (by omega)]
    by_cases hk : k = first
    · subst hk
      rw [if_neg (by omega), if_pos rfl, if_pos (by omega)]
    · rw [if_neg hk]
      by_cases hin : first + 1 ≤ k ∧ k < first + 1 + count
      · rw [if_pos hin, if_pos (by omega)]
      · rw [if_neg hin, if_neg (by omega)]

def onBits (x : BitVec w) : Nat := (List.range w).countP fun i => x.getLsbD i

def setBits (words : Vector (BitVec w) n) : Nat :=
  ((List.range n).map fun o => onBits (word words o)).sum

theorem onBits_congr {x : BitVec w} {p : Nat → Bool} (h : ∀ i, i < w → x.getLsbD i = p i) :
    onBits x = (List.range w).countP p := by
  apply List.countP_congr
  intro i hi
  rw [h i (List.mem_range.mp hi)]

theorem onBits_allOnes : onBits (BitVec.allOnes w) = w := by
  have hall := @onBits_congr w (BitVec.allOnes w) (fun _ => true) fun i hi => by
    rw [BitVec.getLsbD_allOnes, decide_eq_true hi]
  rw [hall, List.countP_true, List.length_range]

theorem onBits_zero : onBits (0#w) = 0 := by
  have hnone := @onBits_congr w 0#w (fun _ => false) fun i _ => BitVec.getLsbD_zero
  rw [hnone, List.countP_false]
  rfl

/-- The bits of a word are those inside and those outside a mask. -/
theorem onBits_and_add (x mask : BitVec w) :
    onBits (x &&& mask) + onBits (x &&& ~~~mask) = onBits x := by
  have hin := @onBits_congr w (x &&& mask) (fun i => x.getLsbD i && mask.getLsbD i) fun i _ =>
    BitVec.getLsbD_and
  have hout := @onBits_congr w (x &&& ~~~mask) (fun i => x.getLsbD i && !mask.getLsbD i) fun i hi => by
    rw [BitVec.getLsbD_and, BitVec.getLsbD_not, decide_eq_true hi, Bool.true_and]
  have hsplit : ∀ l : List Nat, (l.countP fun i => x.getLsbD i && mask.getLsbD i) +
      (l.countP fun i => x.getLsbD i && !mask.getLsbD i) = l.countP fun i => x.getLsbD i := by
    intro l
    induction l with
    | nil => rfl
    | cons i l ih =>
      rw [List.countP_cons, List.countP_cons, List.countP_cons, ← ih]
      cases x.getLsbD i with
      | false => rfl
      | true =>
        cases mask.getLsbD i with
        | false => rfl
        | true =>
          simp only [Bool.and_self, Bool.not_true, Bool.and_false, Bool.false_eq_true, if_true,
            if_false]
          omega
  rw [hin, hout, hsplit]
  rfl

/-- Setting the bits of a mask adds those which were not set. -/
theorem onBits_or (mask x : BitVec w) :
    onBits (mask ||| x) = onBits x + onBits (mask &&& ~~~x) := by
  have hin : (mask ||| x) &&& x = x := by
    apply BitVec.eq_of_getLsbD_eq
    intro i hi
    rw [BitVec.getLsbD_and, BitVec.getLsbD_or]
    cases x.getLsbD i with
    | false => rw [Bool.and_false]
    | true => rw [Bool.or_true, Bool.and_self]
  have hout : (mask ||| x) &&& ~~~x = mask &&& ~~~x := by
    apply BitVec.eq_of_getLsbD_eq
    intro i hi
    rw [BitVec.getLsbD_and, BitVec.getLsbD_and, BitVec.getLsbD_or, BitVec.getLsbD_not,
      decide_eq_true hi, Bool.true_and, Bool.and_or_distrib_right, Bool.and_not_self, Bool.or_false]
  have hsplit := onBits_and_add (mask ||| x) x
  rw [hin, hout] at hsplit
  exact hsplit.symm

/-- Clearing a set bit leaves one bit less. -/
theorem onBits_clear {x : BitVec w} (hi : i < w) (h : x.getLsbD i = true) :
    onBits (x &&& ~~~(1#w <<< i)) + 1 = onBits x := by
  have hone : onBits (x &&& (1#w <<< i)) = 1 := by
    have hbit := @onBits_congr w (x &&& (1#w <<< i)) (fun k => k == i) fun k hk => by
      rw [BitVec.getLsbD_and, getLsbD_one_shiftLeft hk]
      by_cases hki : k = i
      · rw [hki, h, decide_eq_true rfl, beq_self_eq_true, Bool.and_self]
      · rw [decide_eq_false hki, beq_false_of_ne hki, Bool.and_false]
    rw [hbit]
    exact List.count_eq_one_of_mem List.nodup_range (List.mem_range.mpr hi)
  have hsplit := onBits_and_add x (1#w <<< i)
  omega

theorem sum_range_change {f g : Nat → Nat} {n : Nat} (ho : o < n) (h : ∀ k, k ≠ o → g k = f k) :
    ((List.range n).map g).sum + f o = ((List.range n).map f).sum + g o := by
  induction n with
  | zero => exact absurd ho (Nat.not_lt_zero o)
  | succ n ih =>
    rw [List.range_succ, List.map_append, List.map_append, List.sum_append, List.sum_append,
      List.map_singleton, List.map_singleton, List.sum_singleton, List.sum_singleton]
    by_cases hlast : o = n
    · subst hlast
      have hsame : (List.range o).map g = (List.range o).map f := by
        apply List.map_congr_left
        intro k hk
        exact h k (Nat.ne_of_lt (List.mem_range.mp hk))
      rw [hsame]
      omega
    · have hrest := ih (by omega)
      rw [h n (fun heq => hlast heq.symm)]
      omega

theorem setBits_setWord (words : Vector (BitVec w) n) (h : o < n) (x : BitVec w) :
    setBits (setWord words o x) + onBits (word words o) = setBits words + onBits x := by
  have hchange := sum_range_change (f := fun k => onBits (word words k))
    (g := fun k => onBits (word (setWord words o x) k)) h fun k hk => by
      rw [word_setWord words h, if_neg hk]
  rw [word_setWord words h, if_pos rfl] at hchange
  exact hchange

theorem setBits_replicate (x : BitVec w) : setBits (Vector.replicate n x) = n * onBits x := by
  have hword : ∀ o ∈ List.range n, onBits (word (Vector.replicate n x) o) = onBits x := by
    intro o ho
    rw [word, Vector.getElem?_replicate, if_pos (List.mem_range.mp ho), Option.getD_some]
  rw [setBits, List.map_congr_left hword, List.map_const', List.length_range,
    List.sum_replicate_nat]

theorem setBits_eq_countP (words : Vector (BitVec w) n) :
    setBits words = (List.range (w * n)).countP fun i => bit words i := by
  have hprefix : ∀ m, ((List.range m).map fun o => onBits (word words o)).sum =
      (List.range (w * m)).countP fun i => bit words i := by
    intro m
    induction m with
    | zero => rfl
    | succ m ih =>
      have hlast : onBits (word words m) =
          ((List.range w).map (w * m + ·)).countP fun i => bit words i := by
        rw [List.countP_map]
        apply onBits_congr
        intro i hi
        have hdiv : (w * m + i) / w = m := by
          rw [Nat.mul_add_div (by omega), Nat.div_eq_of_lt hi, Nat.add_zero]
        have hmod : (w * m + i) % w = i := by
          rw [Nat.mul_add_mod, Nat.mod_eq_of_lt hi]
        simp only [Function.comp_apply, bit, hdiv, hmod]
      rw [List.range_succ, List.map_append, List.sum_append, ih, List.map_singleton,
        List.sum_singleton, hlast, Nat.mul_succ, List.range_add, List.countP_append]
  exact hprefix n

end WordBitmap
