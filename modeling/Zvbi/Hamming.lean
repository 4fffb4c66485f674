import Mathlib.Data.Int.Bitwise
import Mathlib.Tactic.IntervalCases

/-!
# Error correction tables and byte helpers

The generated tables and the inline functions over them. A negative result
marks an uncorrectable byte. Tables are indexed by the byte itself, so a
lookup cannot leave its table.
-/

set_option maxRecDepth 4000

namespace Hamming

def vbiBitReverse : Vector UInt8 256 := #v[
  0x00, 0x80, 0x40, 0xc0, 0x20, 0xa0, 0x60, 0xe0, 0x10, 0x90, 0x50, 0xd0,
  0x30, 0xb0, 0x70, 0xf0, 0x08, 0x88, 0x48, 0xc8, 0x28, 0xa8, 0x68, 0xe8,
  0x18, 0x98, 0x58, 0xd8, 0x38, 0xb8, 0x78, 0xf8, 0x04, 0x84, 0x44, 0xc4,
  0x24, 0xa4, 0x64, 0xe4, 0x14, 0x94, 0x54, 0xd4, 0x34, 0xb4, 0x74, 0xf4,
  0x0c, 0x8c, 0x4c, 0xcc, 0x2c, 0xac, 0x6c, 0xec, 0x1c, 0x9c, 0x5c, 0xdc,
  0x3c, 0xbc, 0x7c, 0xfc, 0x02, 0x82, 0x42, 0xc2, 0x22, 0xa2, 0x62, 0xe2,
  0x12, 0x92, 0x52, 0xd2, 0x32, 0xb2, 0x72, 0xf2, 0x0a, 0x8a, 0x4a, 0xca,
  0x2a, 0xaa, 0x6a, 0xea, 0x1a, 0x9a, 0x5a, 0xda, 0x3a, 0xba, 0x7a, 0xfa,
  0x06, 0x86, 0x46, 0xc6, 0x26, 0xa6, 0x66, 0xe6, 0x16, 0x96, 0x56, 0xd6,
  0x36, 0xb6, 0x76, 0xf6, 0x0e, 0x8e, 0x4e, 0xce, 0x2e, 0xae, 0x6e, 0xee,
  0x1e, 0x9e, 0x5e, 0xde, 0x3e, 0xbe, 0x7e, 0xfe, 0x01, 0x81, 0x41, 0xc1,
  0x21, 0xa1, 0x61, 0xe1, 0x11, 0x91, 0x51, 0xd1, 0x31, 0xb1, 0x71, 0xf1,
  0x09, 0x89, 0x49, 0xc9, 0x29, 0xa9, 0x69, 0xe9, 0x19, 0x99, 0x59, 0xd9,
  0x39, 0xb9, 0x79, 0xf9, 0x05, 0x85, 0x45, 0xc5, 0x25, 0xa5, 0x65, 0xe5,
  0x15, 0x95, 0x55, 0xd5, 0x35, 0xb5, 0x75, 0xf5, 0x0d, 0x8d, 0x4d, 0xcd,
  0x2d, 0xad, 0x6d, 0xed, 0x1d, 0x9d, 0x5d, 0xdd, 0x3d, 0xbd, 0x7d, 0xfd,
  0x03, 0x83, 0x43, 0xc3, 0x23, 0xa3, 0x63, 0xe3, 0x13, 0x93, 0x53, 0xd3,
  0x33, 0xb3, 0x73, 0xf3, 0x0b, 0x8b, 0x4b, 0xcb, 0x2b, 0xab, 0x6b, 0xeb,
  0x1b, 0x9b, 0x5b, 0xdb, 0x3b, 0xbb, 0x7b, 0xfb, 0x07, 0x87, 0x47, 0xc7,
  0x27, 0xa7, 0x67, 0xe7, 0x17, 0x97, 0x57, 0xd7, 0x37, 0xb7, 0x77, 0xf7,
  0x0f, 0x8f, 0x4f, 0xcf, 0x2f, 0xaf, 0x6f, 0xef, 0x1f, 0x9f, 0x5f, 0xdf,
  0x3f, 0xbf, 0x7f, 0xff]

def vbiHamm8Fwd : Vector UInt8 16 := #v[
  0x15, 0x02, 0x49, 0x5e, 0x64, 0x73, 0x38, 0x2f, 0xd0, 0xc7, 0x8c, 0x9b,
  0xa1, 0xb6, 0xfd, 0xea]

/-- `_vbi_hamm8_inv`, before its bytes are read as `int8_t`. -/
def vbiHamm8Inv : Vector UInt8 256 := #v[
  0x01, 0xff, 0x01, 0x01, 0xff, 0x00, 0x01, 0xff, 0xff, 0x02, 0x01, 0xff,
  0x0a, 0xff, 0xff, 0x07, 0xff, 0x00, 0x01, 0xff, 0x00, 0x00, 0xff, 0x00,
  0x06, 0xff, 0xff, 0x0b, 0xff, 0x00, 0x03, 0xff, 0xff, 0x0c, 0x01, 0xff,
  0x04, 0xff, 0xff, 0x07, 0x06, 0xff, 0xff, 0x07, 0xff, 0x07, 0x07, 0x07,
  0x06, 0xff, 0xff, 0x05, 0xff, 0x00, 0x0d, 0xff, 0x06, 0x06, 0x06, 0xff,
  0x06, 0xff, 0xff, 0x07, 0xff, 0x02, 0x01, 0xff, 0x04, 0xff, 0xff, 0x09,
  0x02, 0x02, 0xff, 0x02, 0xff, 0x02, 0x03, 0xff, 0x08, 0xff, 0xff, 0x05,
  0xff, 0x00, 0x03, 0xff, 0xff, 0x02, 0x03, 0xff, 0x03, 0xff, 0x03, 0x03,
  0x04, 0xff, 0xff, 0x05, 0x04, 0x04, 0x04, 0xff, 0xff, 0x02, 0x0f, 0xff,
  0x04, 0xff, 0xff, 0x07, 0xff, 0x05, 0x05, 0x05, 0x04, 0xff, 0xff, 0x05,
  0x06, 0xff, 0xff, 0x05, 0xff, 0x0e, 0x03, 0xff, 0xff, 0x0c, 0x01, 0xff,
  0x0a, 0xff, 0xff, 0x09, 0x0a, 0xff, 0xff, 0x0b, 0x0a, 0x0a, 0x0a, 0xff,
  0x08, 0xff, 0xff, 0x0b, 0xff, 0x00, 0x0d, 0xff, 0xff, 0x0b, 0x0b, 0x0b,
  0x0a, 0xff, 0xff, 0x0b, 0x0c, 0x0c, 0xff, 0x0c, 0xff, 0x0c, 0x0d, 0xff,
  0xff, 0x0c, 0x0f, 0xff, 0x0a, 0xff, 0xff, 0x07, 0xff, 0x0c, 0x0d, 0xff,
  0x0d, 0xff, 0x0d, 0x0d, 0x06, 0xff, 0xff, 0x0b, 0xff, 0x0e, 0x0d, 0xff,
  0x08, 0xff, 0xff, 0x09, 0xff, 0x09, 0x09, 0x09, 0xff, 0x02, 0x0f, 0xff,
  0x0a, 0xff, 0xff, 0x09, 0x08, 0x08, 0x08, 0xff, 0x08, 0xff, 0xff, 0x09,
  0x08, 0xff, 0xff, 0x0b, 0xff, 0x0e, 0x03, 0xff, 0xff, 0x0c, 0x0f, 0xff,
  0x04, 0xff, 0xff, 0x09, 0x0f, 0xff, 0x0f, 0x0f, 0xff, 0x0e, 0x0f, 0xff,
  0x08, 0xff, 0xff, 0x05, 0xff, 0x0e, 0x0d, 0xff, 0xff, 0x0e, 0x0f, 0xff,
  0x0e, 0x0e, 0xff, 0x0e]

/-- `_vbi_hamm24_inv_par[0]`. Bit 5 is the parity of the index. -/
def vbiHamm24InvPar0 : Vector UInt8 256 := #v[
  0x00, 0x21, 0x22, 0x03, 0x23, 0x02, 0x01, 0x20, 0x24, 0x05, 0x06, 0x27,
  0x07, 0x26, 0x25, 0x04, 0x25, 0x04, 0x07, 0x26, 0x06, 0x27, 0x24, 0x05,
  0x01, 0x20, 0x23, 0x02, 0x22, 0x03, 0x00, 0x21, 0x26, 0x07, 0x04, 0x25,
  0x05, 0x24, 0x27, 0x06, 0x02, 0x23, 0x20, 0x01, 0x21, 0x00, 0x03, 0x22,
  0x03, 0x22, 0x21, 0x00, 0x20, 0x01, 0x02, 0x23, 0x27, 0x06, 0x05, 0x24,
  0x04, 0x25, 0x26, 0x07, 0x27, 0x06, 0x05, 0x24, 0x04, 0x25, 0x26, 0x07,
  0x03, 0x22, 0x21, 0x00, 0x20, 0x01, 0x02, 0x23, 0x02, 0x23, 0x20, 0x01,
  0x21, 0x00, 0x03, 0x22, 0x26, 0x07, 0x04, 0x25, 0x05, 0x24, 0x27, 0x06,
  0x01, 0x20, 0x23, 0x02, 0x22, 0x03, 0x00, 0x21, 0x25, 0x04, 0x07, 0x26,
  0x06, 0x27, 0x24, 0x05, 0x24, 0x05, 0x06, 0x27, 0x07, 0x26, 0x25, 0x04,
  0x00, 0x21, 0x22, 0x03, 0x23, 0x02, 0x01, 0x20, 0x28, 0x09, 0x0a, 0x2b,
  0x0b, 0x2a, 0x29, 0x08, 0x0c, 0x2d, 0x2e, 0x0f, 0x2f, 0x0e, 0x0d, 0x2c,
  0x0d, 0x2c, 0x2f, 0x0e, 0x2e, 0x0f, 0x0c, 0x2d, 0x29, 0x08, 0x0b, 0x2a,
  0x0a, 0x2b, 0x28, 0x09, 0x0e, 0x2f, 0x2c, 0x0d, 0x2d, 0x0c, 0x0f, 0x2e,
  0x2a, 0x0b, 0x08, 0x29, 0x09, 0x28, 0x2b, 0x0a, 0x2b, 0x0a, 0x09, 0x28,
  0x08, 0x29, 0x2a, 0x0b, 0x0f, 0x2e, 0x2d, 0x0c, 0x2c, 0x0d, 0x0e, 0x2f,
  0x0f, 0x2e, 0x2d, 0x0c, 0x2c, 0x0d, 0x0e, 0x2f, 0x2b, 0x0a, 0x09, 0x28,
  0x08, 0x29, 0x2a, 0x0b, 0x2a, 0x0b, 0x08, 0x29, 0x09, 0x28, 0x2b, 0x0a,
  0x0e, 0x2f, 0x2c, 0x0d, 0x2d, 0x0c, 0x0f, 0x2e, 0x29, 0x08, 0x0b, 0x2a,
  0x0a, 0x2b, 0x28, 0x09, 0x0d, 0x2c, 0x2f, 0x0e, 0x2e, 0x0f, 0x0c, 0x2d,
  0x0c, 0x2d, 0x2e, 0x0f, 0x2f, 0x0e, 0x0d, 0x2c, 0x28, 0x09, 0x0a, 0x2b,
  0x0b, 0x2a, 0x29, 0x08]

/-- A byte of an `int8_t` table. -/
def int8 (b : UInt8) : Int := if b.toNat < 128 then b.toNat else (b.toNat : Int) - 256

def vbiRev8 (c : UInt8) : UInt8 := vbiBitReverse.get c.toFin

def vbiUnpar8 (c : UInt8) : Int :=
  if vbiHamm24InvPar0.get c.toFin &&& 32 ≠ 0 then (c &&& 127).toNat else -1

def vbiPar8 (c : UInt8) : UInt8 := c ^^^ ((128 : UInt8) &&& ~~~ (vbiHamm24InvPar0.get c.toFin <<< 2))

instance neZeroSixteen : NeZero 16 := ⟨by decide⟩

def vbiHam8 (c : Fin 16) : UInt8 := vbiHamm8Fwd.get c

def vbiUnham8 (c : UInt8) : Int := int8 (vbiHamm8Inv.get c.toFin)

def vbiUnham16p (p0 p1 : UInt8) : Int := Int.lor (vbiUnham8 p0) (vbiUnham8 p1 * 16)

/-- Parity decoding masks the seven data bits. -/
theorem vbiUnpar8_of_nonneg (b : UInt8) (h : 0 ≤ vbiUnpar8 b) :
    vbiUnpar8 b = ((b &&& 0x7F).toNat : Int) := by
  unfold vbiUnpar8 at h ⊢
  split at h
  · rw [if_pos ‹_›]
  · omega

theorem byte_forall {P : UInt8 → Prop} (h : ∀ i : Fin 256, P (UInt8.ofFin i)) (b : UInt8) : P b := by
  have hb := h b.toFin
  simpa using hb

/-- The tables are read once, from the first entry to the last. -/
theorem get_of_map {α : Type} {table : Vector UInt8 256} {g : UInt8 → α} {f : Nat → α}
    (h : table.toList.map g = (List.range 256).map f) (c : UInt8) :
    g (table.get c.toFin) = f c.toNat := by
  have hc : c.toNat < table.toList.length := by
    rw [Vector.length_toList]
    exact c.toNat_lt
  have hentry : (table.toList.map g)[c.toNat]? = ((List.range 256).map f)[c.toNat]? := by rw [h]
  rw [List.getElem?_map, List.getElem?_map, List.getElem?_range c.toNat_lt,
    List.getElem?_eq_getElem hc, Option.map_some, Option.map_some, Option.some.injEq] at hentry
  exact hentry

def reverseBits (n : Nat) : Nat :=
  n % 2 * 128 + n / 2 % 2 * 64 + n / 4 % 2 * 32 + n / 8 % 2 * 16 + n / 16 % 2 * 8 +
    n / 32 % 2 * 4 + n / 64 % 2 * 2 + n / 128 % 2

theorem vbiRev8_toNat (c : UInt8) : (vbiRev8 c).toNat = reverseBits c.toNat :=
  get_of_map (by decide +kernel) c

def parityBit (n : Nat) : Nat :=
  (n + n / 2 + n / 4 + n / 8 + n / 16 + n / 32 + n / 64 + n / 128) % 2

/-- Bit 5 of an entry tells the parity, also shifted to bit 7 and inverted. -/
theorem inverse_parity (c : UInt8) :
    vbiHamm24InvPar0.get c.toFin &&& 32 = (if parityBit c.toNat = 1 then 32 else 0) ∧
      (128 : UInt8) &&& ~~~ (vbiHamm24InvPar0.get c.toFin <<< 2) =
        if parityBit c.toNat = 1 then 0 else 128 :=
  Prod.mk.inj (@get_of_map _ _ (fun v => (v &&& 32, (128 : UInt8) &&& ~~~ (v <<< 2)))
    (fun n => (if parityBit n = 1 then 32 else 0, if parityBit n = 1 then 0 else 128))
    (by decide +kernel) c)

theorem vbiUnpar8_eq (c : UInt8) :
    vbiUnpar8 c = if parityBit c.toNat = 1 then ((c.toNat &&& 127 : Nat) : Int) else -1 := by
  rw [vbiUnpar8, (inverse_parity c).1]
  by_cases hodd : parityBit c.toNat = 1
  · rw [if_pos hodd, if_pos hodd, if_pos (by decide)]
    rfl
  · rw [if_neg hodd, if_neg hodd, if_neg (by decide)]

def setParityBit (n : Nat) : Nat := if parityBit n = 1 then n else n ^^^ 128

theorem vbiPar8_toNat (c : UInt8) : (vbiPar8 c).toNat = setParityBit c.toNat := by
  rw [vbiPar8, (inverse_parity c).2, setParityBit]
  split
  · rw [UInt8.xor_zero]
  · exact UInt8.toNat_xor c 128

theorem setParityBit_spec :
    ∀ n < 256, parityBit (setParityBit n) = 1 ∧ setParityBit n &&& 127 = n &&& 127 := by
  decide +kernel

/-- A byte which fits into seven bits survives parity coding. -/
theorem vbiUnpar8_par8 (c : UInt8) (h : c < 128) : vbiUnpar8 (vbiPar8 c) = c.toNat := by
  have hc := c.toNat_lt
  have hsmall : c.toNat &&& 127 = c.toNat := by
    rw [Nat.and_two_pow_sub_one_eq_mod c.toNat 7]
    exact Nat.mod_eq_of_lt h
  obtain ⟨hodd, hdata⟩ := setParityBit_spec _ hc
  rw [vbiUnpar8_eq, vbiPar8_toNat, if_pos hodd, hdata, hsmall]

theorem vbiUnham8_range (c : UInt8) : -1 ≤ vbiUnham8 c ∧ vbiUnham8 c ≤ 15 := by
  have hall : decide (-1 ≤ vbiUnham8 c ∧ vbiUnham8 c ≤ 15) = true :=
    @get_of_map _ _ (fun v => decide (-1 ≤ int8 v ∧ int8 v ≤ 15)) (fun _ => true)
      (by decide +kernel) c
  exact of_decide_eq_true hall

theorem int_lor_range : ∀ a b : Fin 17,
    let n := Int.lor ((a : Int) - 1) (((b : Int) - 1) * 16)
    (n < 0 ↔ a = 0 ∨ b = 0) ∧ -16 ≤ n ∧
      (a ≠ 0 → b ≠ 0 → n = (a : Int) - 1 + ((b : Int) - 1) * 16) := by
  decide +kernel

/-- A byte with its error value as an element of a finite type. -/
theorem vbiUnham8_fin (c : UInt8) : ∃ a : Fin 17, vbiUnham8 c = (a : Int) - 1 := by
  have h := vbiUnham8_range c
  exact ⟨⟨(vbiUnham8 c + 1).toNat, by omega⟩, by dsimp only; omega⟩

/-- A word is negative exactly if one of its bytes is uncorrectable. -/
theorem vbiUnham16p_spec (p0 p1 : UInt8) :
    (vbiUnham16p p0 p1 < 0 ↔ vbiUnham8 p0 < 0 ∨ vbiUnham8 p1 < 0) ∧
    (0 ≤ vbiUnham16p p0 p1 → vbiUnham16p p0 p1 = vbiUnham8 p0 + vbiUnham8 p1 * 16) := by
  obtain ⟨a, ha⟩ := vbiUnham8_fin p0
  obtain ⟨b, hb⟩ := vbiUnham8_fin p1
  obtain ⟨hneg, -, hsum⟩ := int_lor_range a b
  simp only [vbiUnham16p, ha, hb]
  constructor
  · rw [hneg, Fin.ext_iff, Fin.ext_iff]
    simp only [Fin.val_zero]
    omega
  · intro h
    refine hsum ?_ ?_
    · rintro rfl
      exact absurd (hneg.mpr (Or.inl rfl)) (by omega)
    · rintro rfl
      exact absurd (hneg.mpr (Or.inr rfl)) (by omega)

theorem vbiUnham16p_ge (p0 p1 : UInt8) : -16 ≤ vbiUnham16p p0 p1 := by
  obtain ⟨a, ha⟩ := vbiUnham8_fin p0
  obtain ⟨b, hb⟩ := vbiUnham8_fin p1
  rw [vbiUnham16p, ha, hb]
  exact (int_lor_range a b).2.1

theorem vbiUnham16p_le (p0 p1 : UInt8) : vbiUnham16p p0 p1 ≤ 255 := by
  have h0 := vbiUnham8_range p0
  have h1 := vbiUnham8_range p1
  by_cases h : 0 ≤ vbiUnham16p p0 p1
  · have hsum := (vbiUnham16p_spec p0 p1).2 h
    omega
  · omega

end Hamming
