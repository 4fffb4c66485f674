import Mathlib.Data.Nat.Bitwise
import Mathlib.Tactic.Ring
import Zvbi.ExtensionPackets

/-!
# Fields of a sequence of triplets

The triplets of a packet are one sequence of bits, from which `get_bits()` takes fields of
up to 18 bits. A field which begins in the buffer may end in the next triplet.
-/

namespace TripletFields
open ExtensionPackets

/-- The bits of all triplets as one number, with the first triplet in the least significant
bits. -/
def concatenation : List (BitVec 32) → Nat
  | [] => 0
  | t :: ts => t.toNat + 2 ^ 18 * concatenation ts

/-- The successive fields of these widths, least significant bit first. -/
def fields (bits : Nat) : List Nat → List Nat
  | [] => []
  | count :: counts => bits % 2 ^ count :: fields (bits / 2 ^ count) counts

/-- What is left of the stream: the bits in the buffer, and behind them the triplets `rest`
which are next in the array. -/
structure Holds (bs : BitStream) (rest : List (BitVec 32)) (bits : Nat) : Prop where
  buffer_lt : bs.buffer.toNat < 2 ^ bs.left
  next : ∀ i (h : i < rest.length), bs.triplet i = rest[i]
  bits_eq : bits = bs.buffer.toNat + 2 ^ bs.left * concatenation rest

def supply (bs : BitStream) (rest : List (BitVec 32)) : Nat := bs.left + 18 * rest.length

theorem toNat_mask (r : BitVec 32) {count : Nat} (hcount : count ≤ 18) :
    (r &&& (1#32 <<< count - 1)).toNat = r.toNat % 2 ^ count := by
  have hone : (1#32 <<< count).toNat = 2 ^ count := by
    have hlt : 2 ^ count < 2 ^ 32 := Nat.pow_lt_pow_right (by decide) (by omega)
    simpa [BitVec.toNat_shiftLeft, Nat.shiftLeft_eq] using hlt
  have hmask : (1#32 <<< count - 1).toNat = 2 ^ count - 1 := by
    have hpos : 0 < 2 ^ count := Nat.two_pow_pos count
    rw [BitVec.toNat_sub_of_le, hone]
    · rfl
    · rw [BitVec.le_def, hone]
      exact hpos
  rw [BitVec.toNat_and, hmask, Nat.and_two_pow_sub_one_eq_mod]

/-- The bits of the next triplet are put above those in the buffer; what does not fit in 32
bits is above the field. -/
theorem toNat_refill {buffer next : BitVec 32} {left count : Nat}
    (hbuffer : buffer.toNat < 2 ^ left) (hcount : count ≤ 18) :
    (buffer ||| next <<< left).toNat % 2 ^ count =
      (buffer.toNat + 2 ^ left * next.toNat) % 2 ^ count := by
  have hsum : buffer.toNat + 2 ^ left * next.toNat = buffer.toNat ||| 2 ^ left * next.toNat := by
    rw [Nat.add_comm, Nat.two_pow_add_eq_or_of_lt hbuffer, Nat.or_comm]
  have hdvd : 2 ^ count ∣ 2 ^ 32 := Nat.pow_dvd_pow 2 (by omega)
  rw [hsum, BitVec.toNat_or, BitVec.toNat_shiftLeft, Nat.shiftLeft_eq, Nat.or_mod_two_pow,
    Nat.mod_mod_of_dvd _ hdvd, Nat.mul_comm, ← Nat.or_mod_two_pow]

section
variable {bs : BitStream} {rest : List (BitVec 32)} {bits count : Nat}

theorem getBits_buffered (h : Holds bs rest bits) (hcount : count ≤ 18)
    (hleft : count ≤ bs.left) :
    (getBits count bs).1.toNat = bits % 2 ^ count ∧
      Holds (getBits count bs).2 rest (bits / 2 ^ count) ∧
      supply (getBits count bs).2 rest + count = supply bs rest := by
  have hpow : 2 ^ bs.left = 2 ^ count * 2 ^ (bs.left - count) := by
    rw [← Nat.pow_add, Nat.add_sub_cancel' hleft]
  rw [getBits, if_neg (Nat.not_lt.mpr hleft)]
  refine ⟨?_, ⟨?_, h.next, ?_⟩, ?_⟩
  · rw [toNat_mask _ hcount, h.bits_eq, hpow, Nat.mul_assoc, Nat.add_mul_mod_self_left]
  · rw [BitVec.toNat_ushiftRight, Nat.shiftRight_eq_div_pow]
    refine Nat.div_lt_of_lt_mul ?_
    rw [← hpow]
    exact h.buffer_lt
  · rw [BitVec.toNat_ushiftRight, Nat.shiftRight_eq_div_pow, h.bits_eq, hpow, Nat.mul_assoc,
      Nat.add_mul_div_left _ _ (Nat.two_pow_pos count)]
  · simp only [supply]
    omega

theorem getBits_refilled {t : BitVec 32} (h : Holds bs (t :: rest) bits)
    (ht : t.toNat < 2 ^ 18) (hcount : count ≤ 18) (hleft : bs.left < count) :
    (getBits count bs).1.toNat = bits % 2 ^ count ∧
      Holds (getBits count bs).2 rest (bits / 2 ^ count) ∧
      supply (getBits count bs).2 rest + count = supply bs (t :: rest) := by
  obtain ⟨n, rfl⟩ := Nat.exists_eq_add_of_lt hleft
  have hnext : bs.triplet 0 = t := h.next 0 (Nat.succ_pos _)
  have hn : bs.left + n + 1 - bs.left = n + 1 := by omega
  have hpow : 2 ^ 18 = 2 ^ (n + 1) * 2 ^ (18 - (n + 1)) := by
    rw [← Nat.pow_add, Nat.add_sub_cancel' (by omega)]
  have hbits : bits = bs.buffer.toNat + 2 ^ bs.left * t.toNat +
      2 ^ (bs.left + n + 1) * (2 ^ (18 - (n + 1)) * concatenation rest) := by
    rw [h.bits_eq, concatenation, hpow, Nat.add_assoc bs.left, Nat.pow_add 2 bs.left]
    ring
  rw [getBits, if_pos hleft, hnext, hn]
  refine ⟨?_, ⟨?_, ?_, ?_⟩, ?_⟩
  · rw [toNat_mask _ hcount, toNat_refill h.buffer_lt hcount, hbits, Nat.add_mul_mod_self_left]
  · rw [BitVec.toNat_ushiftRight, Nat.shiftRight_eq_div_pow]
    refine Nat.div_lt_of_lt_mul ?_
    rw [← hpow]
    exact ht
  · intro i hi
    exact h.next (i + 1) (Nat.succ_lt_succ hi)
  · rw [BitVec.toNat_ushiftRight, Nat.shiftRight_eq_div_pow, hbits,
      Nat.add_mul_div_left _ _ (Nat.two_pow_pos _), Nat.add_assoc bs.left, Nat.pow_add,
      ← Nat.div_div_eq_div_mul, Nat.add_mul_div_left _ _ (Nat.two_pow_pos _),
      Nat.div_eq_of_lt h.buffer_lt, Nat.zero_add]
  · simp only [supply, List.length_cons]
    omega

theorem getBits_holds (h : Holds bs rest bits) (hsmall : ∀ t ∈ rest, t.toNat < 2 ^ 18)
    (hcount : count ≤ 18) (hsupply : count ≤ supply bs rest) :
    (getBits count bs).1.toNat = bits % 2 ^ count ∧ ∃ rest', rest' <:+ rest ∧
      Holds (getBits count bs).2 rest' (bits / 2 ^ count) ∧
      supply (getBits count bs).2 rest' + count = supply bs rest := by
  by_cases hleft : count ≤ bs.left
  · obtain ⟨hfield, hholds⟩ := getBits_buffered h hcount hleft
    exact ⟨hfield, rest, List.suffix_rfl, hholds⟩
  · cases rest with
    | nil => exact absurd hsupply hleft
    | cons t rest =>
      obtain ⟨hfield, hholds⟩ := getBits_refilled h (hsmall t (List.mem_cons_self ..)) hcount
        (Nat.not_le.mp hleft)
      exact ⟨hfield, rest, List.suffix_cons t rest, hholds⟩

theorem mapM_getBits {counts : List Nat} (h : Holds bs rest bits)
    (hsmall : ∀ t ∈ rest, t.toNat < 2 ^ 18) (hcounts : ∀ count ∈ counts, count ≤ 18)
    (hsupply : counts.sum ≤ supply bs rest) :
    ((counts.mapM getBits).run bs).1.map BitVec.toNat = fields bits counts := by
  induction counts generalizing bs rest bits with
  | nil => rfl
  | cons count counts ih =>
    rw [List.sum_cons] at hsupply
    obtain ⟨hfield, rest', hsuffix, hholds, hleft⟩ :=
      getBits_holds h hsmall (hcounts count (List.mem_cons_self ..)) (by omega)
    have hnext := ih hholds (fun t ht => hsmall t (hsuffix.mem ht))
      (fun count hcount => hcounts count (List.mem_cons_of_mem _ hcount)) (by omega)
    rw [fields, ← hfield, ← hnext, List.mapM_cons]
    rfl

end

/-- The fields are those of the concatenation, whatever is behind the triplets in memory. -/
theorem getBits_fields (triplets : List (BitVec 32))
    (hsmall : ∀ t ∈ triplets, t.toNat < 2 ^ 18) (memory : Nat → BitVec 32)
    (hmemory : ∀ i (h : i < triplets.length), memory i = triplets[i]) (counts : List Nat)
    (hcounts : ∀ count ∈ counts, count ≤ 18) (htotal : counts.sum ≤ 18 * triplets.length) :
    ((counts.mapM getBits).run ⟨memory, 0, 0⟩).1.map BitVec.toNat =
      fields (concatenation triplets) counts := by
  refine mapM_getBits ⟨Nat.one_pos, hmemory, ?_⟩ hsmall hcounts ?_
  · rw [Nat.pow_zero, Nat.one_mul]
    exact (Nat.zero_add _).symm
  · rw [supply, Nat.zero_add]
    exact htotal

/-- Two triplets, a field within the first one, one across both and the rest. -/
theorem getBits_fields_two :
    (([4, 18, 14].mapM getBits).run ⟨fun _ => 0x2A5C3#32, 0, 0⟩).1.map BitVec.toNat =
      [0x3, 0xEA5C, 0x2A5C] :=
  (getBits_fields [0x2A5C3#32, 0x2A5C3#32] (by simp) (fun _ => 0x2A5C3#32) (by decide)
    [4, 18, 14] (by decide) (by decide)).trans (by decide +kernel)

end TripletFields
