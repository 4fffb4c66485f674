import Zvbi.AffineBits
import Zvbi.Hamming24

/-!
# Encoding of Hamming 24/18

The tables of the encoder and of the decoder hold affine maps. So does their composition, and a
few words tell what becomes of all data and of all errors of one or two bits.
-/

set_option maxRecDepth 4000

namespace Hamming24Coding
open AffineBits Hamming

def vbiHamm24Fwd0 : Vector UInt8 256 := #v[
  0x8b, 0x8c, 0x92, 0x95, 0xa1, 0xa6, 0xb8, 0xbf, 0xc0, 0xc7, 0xd9, 0xde, 0xea, 0xed, 0xf3, 0xf4,
  0x0a, 0x0d, 0x13, 0x14, 0x20, 0x27, 0x39, 0x3e, 0x41, 0x46, 0x58, 0x5f, 0x6b, 0x6c, 0x72, 0x75,
  0x09, 0x0e, 0x10, 0x17, 0x23, 0x24, 0x3a, 0x3d, 0x42, 0x45, 0x5b, 0x5c, 0x68, 0x6f, 0x71, 0x76,
  0x88, 0x8f, 0x91, 0x96, 0xa2, 0xa5, 0xbb, 0xbc, 0xc3, 0xc4, 0xda, 0xdd, 0xe9, 0xee, 0xf0, 0xf7,
  0x08, 0x0f, 0x11, 0x16, 0x22, 0x25, 0x3b, 0x3c, 0x43, 0x44, 0x5a, 0x5d, 0x69, 0x6e, 0x70, 0x77,
  0x89, 0x8e, 0x90, 0x97, 0xa3, 0xa4, 0xba, 0xbd, 0xc2, 0xc5, 0xdb, 0xdc, 0xe8, 0xef, 0xf1, 0xf6,
  0x8a, 0x8d, 0x93, 0x94, 0xa0, 0xa7, 0xb9, 0xbe, 0xc1, 0xc6, 0xd8, 0xdf, 0xeb, 0xec, 0xf2, 0xf5,
  0x0b, 0x0c, 0x12, 0x15, 0x21, 0x26, 0x38, 0x3f, 0x40, 0x47, 0x59, 0x5e, 0x6a, 0x6d, 0x73, 0x74,
  0x03, 0x04, 0x1a, 0x1d, 0x29, 0x2e, 0x30, 0x37, 0x48, 0x4f, 0x51, 0x56, 0x62, 0x65, 0x7b, 0x7c,
  0x82, 0x85, 0x9b, 0x9c, 0xa8, 0xaf, 0xb1, 0xb6, 0xc9, 0xce, 0xd0, 0xd7, 0xe3, 0xe4, 0xfa, 0xfd,
  0x81, 0x86, 0x98, 0x9f, 0xab, 0xac, 0xb2, 0xb5, 0xca, 0xcd, 0xd3, 0xd4, 0xe0, 0xe7, 0xf9, 0xfe,
  0x00, 0x07, 0x19, 0x1e, 0x2a, 0x2d, 0x33, 0x34, 0x4b, 0x4c, 0x52, 0x55, 0x61, 0x66, 0x78, 0x7f,
  0x80, 0x87, 0x99, 0x9e, 0xaa, 0xad, 0xb3, 0xb4, 0xcb, 0xcc, 0xd2, 0xd5, 0xe1, 0xe6, 0xf8, 0xff,
  0x01, 0x06, 0x18, 0x1f, 0x2b, 0x2c, 0x32, 0x35, 0x4a, 0x4d, 0x53, 0x54, 0x60, 0x67, 0x79, 0x7e,
  0x02, 0x05, 0x1b, 0x1c, 0x28, 0x2f, 0x31, 0x36, 0x49, 0x4e, 0x50, 0x57, 0x63, 0x64, 0x7a, 0x7d,
  0x83, 0x84, 0x9a, 0x9d, 0xa9, 0xae, 0xb0, 0xb7, 0xc8, 0xcf, 0xd1, 0xd6, 0xe2, 0xe5, 0xfb, 0xfc]

def vbiHamm24Fwd1 : Vector UInt8 256 := #v[
  0x00, 0x89, 0x8a, 0x03, 0x8b, 0x02, 0x01, 0x88, 0x01, 0x88, 0x8b, 0x02, 0x8a, 0x03, 0x00, 0x89,
  0x02, 0x8b, 0x88, 0x01, 0x89, 0x00, 0x03, 0x8a, 0x03, 0x8a, 0x89, 0x00, 0x88, 0x01, 0x02, 0x8b,
  0x03, 0x8a, 0x89, 0x00, 0x88, 0x01, 0x02, 0x8b, 0x02, 0x8b, 0x88, 0x01, 0x89, 0x00, 0x03, 0x8a,
  0x01, 0x88, 0x8b, 0x02, 0x8a, 0x03, 0x00, 0x89, 0x00, 0x89, 0x8a, 0x03, 0x8b, 0x02, 0x01, 0x88,
  0x08, 0x81, 0x82, 0x0b, 0x83, 0x0a, 0x09, 0x80, 0x09, 0x80, 0x83, 0x0a, 0x82, 0x0b, 0x08, 0x81,
  0x0a, 0x83, 0x80, 0x09, 0x81, 0x08, 0x0b, 0x82, 0x0b, 0x82, 0x81, 0x08, 0x80, 0x09, 0x0a, 0x83,
  0x0b, 0x82, 0x81, 0x08, 0x80, 0x09, 0x0a, 0x83, 0x0a, 0x83, 0x80, 0x09, 0x81, 0x08, 0x0b, 0x82,
  0x09, 0x80, 0x83, 0x0a, 0x82, 0x0b, 0x08, 0x81, 0x08, 0x81, 0x82, 0x0b, 0x83, 0x0a, 0x09, 0x80,
  0x09, 0x80, 0x83, 0x0a, 0x82, 0x0b, 0x08, 0x81, 0x08, 0x81, 0x82, 0x0b, 0x83, 0x0a, 0x09, 0x80,
  0x0b, 0x82, 0x81, 0x08, 0x80, 0x09, 0x0a, 0x83, 0x0a, 0x83, 0x80, 0x09, 0x81, 0x08, 0x0b, 0x82,
  0x0a, 0x83, 0x80, 0x09, 0x81, 0x08, 0x0b, 0x82, 0x0b, 0x82, 0x81, 0x08, 0x80, 0x09, 0x0a, 0x83,
  0x08, 0x81, 0x82, 0x0b, 0x83, 0x0a, 0x09, 0x80, 0x09, 0x80, 0x83, 0x0a, 0x82, 0x0b, 0x08, 0x81,
  0x01, 0x88, 0x8b, 0x02, 0x8a, 0x03, 0x00, 0x89, 0x00, 0x89, 0x8a, 0x03, 0x8b, 0x02, 0x01, 0x88,
  0x03, 0x8a, 0x89, 0x00, 0x88, 0x01, 0x02, 0x8b, 0x02, 0x8b, 0x88, 0x01, 0x89, 0x00, 0x03, 0x8a,
  0x02, 0x8b, 0x88, 0x01, 0x89, 0x00, 0x03, 0x8a, 0x03, 0x8a, 0x89, 0x00, 0x88, 0x01, 0x02, 0x8b,
  0x00, 0x89, 0x8a, 0x03, 0x8b, 0x02, 0x01, 0x88, 0x01, 0x88, 0x8b, 0x02, 0x8a, 0x03, 0x00, 0x89]

def vbiHamm24Fwd2 : Vector UInt8 4 := #v[0x00, 0x0a, 0x0b, 0x01]

/-- `vbi_ham24p()`. -/
def vbiHam24p (c : Nat) : UInt8 × UInt8 × UInt8 :=
  let byte0 := vbiHamm24Fwd0.get (Fin.ofNat 256 (c &&& 0xff)) ^^^
    vbiHamm24Fwd1.get (Fin.ofNat 256 (c >>> 8 &&& 0xff)) ^^^
    vbiHamm24Fwd2.get (Fin.ofNat 4 (c >>> 16 &&& 3))
  let d5d11 := UInt8.ofNat (c >>> 4 &&& 0x7f)
  let d12d18 := UInt8.ofNat (c >>> 11 &&& 0x7f)
  let p5 := (0x80 : UInt8) &&& ~~~(vbiHamm24InvPar0.get d12d18.toFin <<< 2)
  let p6 := (0x80 : UInt8) &&&
    ((vbiHamm24InvPar0.get byte0.toFin ^^^ vbiHamm24InvPar0.get d5d11.toFin) <<< 2)
  (byte0, d5d11 ||| p5, d12d18 ||| p6)

theorem tables :
    vbiHamm24Fwd0.toList.map UInt8.toNat = (List.range 256).map (fun x => 0x8b ^^^
        combine [0x07, 0x19, 0x2a, 0x4b, 0x81, 0x82, 0x83, 0x88] x) ∧
      vbiHamm24Fwd1.toList.map UInt8.toNat = (List.range 256).map
        (combine [0x89, 0x8a, 0x8b, 0x01, 0x02, 0x03, 0x08, 0x09]) ∧
      vbiHamm24Fwd2.toList.map UInt8.toNat = (List.range 4).map (combine [0x0a, 0x0b]) ∧
      vbiHamm24InvPar0.toList.map UInt8.toNat = (List.range 256).map
        (combine [0x21, 0x22, 0x23, 0x24, 0x25, 0x26, 0x27, 0x28]) ∧
      vbiHamm24InvPar1.toList.map UInt8.toNat = (List.range 256).map
        (combine [0x29, 0x2a, 0x2b, 0x2c, 0x2d, 0x2e, 0x2f, 0x30]) ∧
      vbiHamm24InvPar2.toList.map UInt8.toNat = (List.range 256).map (fun x => 0x3f ^^^
        combine [0x31, 0x32, 0x33, 0x34, 0x35, 0x36, 0x37, 0x20] x) ∧
      vbiHamm24InvD1D4.toList.map UInt8.toNat = (List.range 64).map (combine [1, 0, 2, 4, 8, 0]) := by
  decide +kernel

def par0 : Nat → Nat := combine [0x21, 0x22, 0x23, 0x24, 0x25, 0x26, 0x27, 0x28]

def byte0 (c : Nat) : Nat :=
  (0x8b ^^^ combine [0x07, 0x19, 0x2a, 0x4b, 0x81, 0x82, 0x83, 0x88] (c &&& 0xff)) ^^^
    combine [0x89, 0x8a, 0x8b, 0x01, 0x02, 0x03, 0x08, 0x09] (c >>> 8 &&& 0xff) ^^^
    combine [0x0a, 0x0b] (c >>> 16 &&& 3)

def byte1 (c : Nat) : Nat :=
  (c >>> 4 &&& 0x7f) ^^^ ((0xff ^^^ par0 (c >>> 11 &&& 0x7f) <<< 2) &&& 0x80)

def byte2 (c : Nat) : Nat :=
  (c >>> 11 &&& 0x7f) ^^^ ((par0 (byte0 c) ^^^ par0 (c >>> 4 &&& 0x7f)) <<< 2 &&& 0x80)

theorem affine_byte0 : Affine byte0 :=
  (((affine_const 0x8b).xor ((affine_combine _).comp (affine_id.and 0xff))).xor
    ((affine_combine _).comp ((affine_id.shiftRight 8).and 0xff))).xor
    ((affine_combine _).comp ((affine_id.shiftRight 16).and 3))

theorem affine_byte1 : Affine byte1 :=
  ((affine_id.shiftRight 4).and 0x7f).xor (((affine_const 0xff).xor
    (((affine_combine _).comp ((affine_id.shiftRight 11).and 0x7f)).shiftLeft 2)).and 0x80)

theorem affine_byte2 : Affine byte2 :=
  ((affine_id.shiftRight 11).and 0x7f).xor
    ((((affine_combine _).comp affine_byte0).xor
      ((affine_combine _).comp ((affine_id.shiftRight 4).and 0x7f))).shiftLeft 2 |>.and 0x80)

theorem parity_bits : ∀ x < 256,
    ((0x80 : UInt8) &&& ~~~(UInt8.ofNat x <<< 2)).toNat = (0xff ^^^ x <<< 2) &&& 0x80 ∧
      ((0x80 : UInt8) &&& (UInt8.ofNat x <<< 2)).toNat = x <<< 2 &&& 0x80 := by
  decide +kernel

theorem septet (k : Nat) : (UInt8.ofNat (k &&& 0x7f)).toNat = k &&& 0x7f :=
  UInt8.toNat_ofNat_of_lt' (Nat.and_lt_two_pow k (by decide : 0x7f < 2 ^ 8))

/-- Seven data bits and their parity bit. -/
theorem with_parity (k : Nat) (x : UInt8) :
    (UInt8.ofNat (k &&& 0x7f) ||| ((0x80 : UInt8) &&& ~~~(x <<< 2))).toNat =
        (k &&& 0x7f) ^^^ ((0xff ^^^ x.toNat <<< 2) &&& 0x80) ∧
      (UInt8.ofNat (k &&& 0x7f) ||| ((0x80 : UInt8) &&& (x <<< 2))).toNat =
        (k &&& 0x7f) ^^^ (x.toNat <<< 2 &&& 0x80) := by
  obtain ⟨hnot, hself⟩ := parity_bits x.toNat x.toNat_lt
  rw [UInt8.ofNat_toNat] at hnot hself
  rw [UInt8.toNat_or, UInt8.toNat_or, septet, hnot, hself, or_eq_xor (and_masks rfl _ _),
    or_eq_xor (and_masks rfl _ _)]
  exact ⟨rfl, rfl⟩

theorem par0_get (x : UInt8) : (vbiHamm24InvPar0.get x.toFin).toNat = par0 x.toNat :=
  table_get tables.2.2.2.1 x.toFin

theorem vbiHam24p_eq (c : Nat) : (vbiHam24p c).1.toNat = byte0 c ∧
    (vbiHam24p c).2.1.toNat = byte1 c ∧ (vbiHam24p c).2.2.toNat = byte2 c := by
  have hindex : ∀ k, (Fin.ofNat 256 (k &&& 0xff)).val = k &&& 0xff := fun k =>
    Nat.mod_eq_of_lt (Nat.and_lt_two_pow k (by decide : 0xff < 2 ^ 8))
  have hindex2 : ∀ k, (Fin.ofNat 4 (k &&& 3)).val = k &&& 3 := fun k =>
    Nat.mod_eq_of_lt (Nat.and_lt_two_pow k (by decide : 3 < 2 ^ 2))
  have h0 : (vbiHam24p c).1.toNat = byte0 c := by
    dsimp only [vbiHam24p]
    rw [UInt8.toNat_xor, UInt8.toNat_xor, table_get tables.1, table_get tables.2.1,
      table_get tables.2.2.1, hindex, hindex, hindex2]
    rfl
  refine ⟨h0, (with_parity (c >>> 4) _).1.trans ?_, (with_parity (c >>> 11) _).2.trans ?_⟩
  · rw [par0_get, septet]
    rfl
  · rw [UInt8.toNat_xor, par0_get, par0_get, septet]
    exact congrArg (fun k => _ ^^^ ((par0 k ^^^ _) <<< 2 &&& 0x80)) h0

def check (p0 p1 p2 : Nat) : Nat :=
  par0 p0 ^^^ combine [0x29, 0x2a, 0x2b, 0x2c, 0x2d, 0x2e, 0x2f, 0x30] p1 ^^^
    (0x3f ^^^ combine [0x31, 0x32, 0x33, 0x34, 0x35, 0x36, 0x37, 0x20] p2)

def data (p0 p1 p2 : Nat) : Nat :=
  combine [1, 0, 2, 4, 8, 0] (p0 >>> 2) ^^^ (p1 &&& 0x7f) <<< 4 ^^^ (p2 &&& 0x7f) <<< 11

local instance neZeroSixtyFour : NeZero 64 := ⟨by decide⟩

/-- The data bits after the correction. -/
def corrected (p0 p1 p2 : Nat) : BitVec 32 :=
  BitVec.ofNat 32 (data p0 p1 p2) ^^^ vbiHamm24InvErr.get (Fin.ofNat 64 (check p0 p1 p2))

theorem vbiUnham24p_eq (p0 p1 p2 : UInt8) :
    vbiUnham24p p0 p1 p2 = corrected p0.toNat p1.toNat p2.toNat := by
  have hd : ∀ x < 64, combine [1, 0, 2, 4, 8, 0] x = combine [1, 0, 2, 4, 8, 0] x &&& 0xf := by
    decide +kernel
  have hlt : p0.toNat >>> 2 < 64 := by
    have := p0.toNat_lt
    rw [Nat.shiftRight_eq_div_pow]
    omega
  have hindex : (Fin.ofNat 64 (p0.toNat >>> 2)).val = p0.toNat >>> 2 := Nat.mod_eq_of_lt hlt
  have hsyndrome : (syndrome p0 p1 p2).toNat = check p0.toNat p1.toNat p2.toNat := by
    rw [syndrome, UInt8.toNat_xor, UInt8.toNat_xor, par0_get, table_get tables.2.2.2.2.1,
      table_get tables.2.2.2.2.2.1]
    rfl
  have hor : ∀ a b c : Nat, (a &&& 0xf) ||| (b &&& 0x7f) <<< 4 ||| (c &&& 0x7f) <<< 11 =
      (a &&& 0xf) ^^^ (b &&& 0x7f) <<< 4 ^^^ (c &&& 0x7f) <<< 11 := by
    intro a b c
    rw [Nat.shiftLeft_and_distrib, Nat.shiftLeft_and_distrib, or_eq_xor, or_eq_xor (and_masks rfl a _)]
    rw [Nat.and_or_distrib_right, and_masks rfl, and_masks rfl, Nat.or_zero]
  rw [vbiUnham24p, corrected, hsyndrome, table_get tables.2.2.2.2.2.2, hindex, hd _ hlt, hor,
    ← hd _ hlt]
  rfl

/-- A word as it is encoded has no error. -/
theorem encoded : ∀ c < 2 ^ 18, check (byte0 c) (byte1 c) (byte2 c) = 0 ∧
    data (byte0 c) (byte1 c) (byte2 c) = c := by
  have hcheck : Affine fun c => check (byte0 c) (byte1 c) (byte2 c) :=
    (((affine_combine _).comp affine_byte0).xor ((affine_combine _).comp affine_byte1)).xor
      ((affine_const _).xor ((affine_combine _).comp affine_byte2))
  have hdata : Affine fun c => data (byte0 c) (byte1 c) (byte2 c) :=
    (((affine_combine _).comp (affine_byte0.shiftRight 2)).xor
      ((affine_byte1.and _).shiftLeft 4)).xor ((affine_byte2.and _).shiftLeft 11)
  have hbits : (check (byte0 0) (byte1 0) (byte2 0) = 0 ∧
      data (byte0 0) (byte1 0) (byte2 0) = 0) ∧ ∀ i < 18,
        check (byte0 (2 ^ i)) (byte1 (2 ^ i)) (byte2 (2 ^ i)) = 0 ∧
          data (byte0 (2 ^ i)) (byte1 (2 ^ i)) (byte2 (2 ^ i)) = 2 ^ i := by
    decide +kernel
  intro c hc
  exact ⟨hcheck.eq_of_bits (affine_const _) hbits.1.1 (fun i hi => (hbits.2 i hi).1) c hc,
    hdata.eq_of_bits affine_id hbits.1.2 (fun i hi => (hbits.2 i hi).2) c hc⟩

/-- The bits of `e` are inverted. -/
def disturb (e : Nat) (p : UInt8 × UInt8 × UInt8) : UInt8 × UInt8 × UInt8 :=
  (p.1 ^^^ UInt8.ofNat e, p.2.1 ^^^ UInt8.ofNat (e >>> 8), p.2.2 ^^^ UInt8.ofNat (e >>> 16))

def unham (p : UInt8 × UInt8 × UInt8) : BitVec 32 := vbiUnham24p p.1 p.2.1 p.2.2

/-- What an error adds to a word without an error. -/
def effect (e0 e1 e2 : Nat) : BitVec 32 :=
  BitVec.ofNat 32 (data e0 e1 e2) ^^^ vbiHamm24InvErr.get (Fin.ofNat 64 (check e0 e1 e2 ^^^ 0x3f))

variable {c : Nat}

theorem unham_disturb (hc : c < 2 ^ 18) (e : Nat) :
    unham (disturb e (vbiHam24p c)) =
      BitVec.ofNat 32 c ^^^ effect (e % 256) ((e >>> 8) % 256) ((e >>> 16) % 256) := by
  have hxor : ∀ p0 p1 p2 e0 e1 e2 : Nat,
      check (p0 ^^^ e0) (p1 ^^^ e1) (p2 ^^^ e2) = check p0 p1 p2 ^^^ (check e0 e1 e2 ^^^ 0x3f) ∧
        data (p0 ^^^ e0) (p1 ^^^ e1) (p2 ^^^ e2) = data p0 p1 p2 ^^^ data e0 e1 e2 := by
    intro p0 p1 p2 e0 e1 e2
    have hconst : ∀ x : Nat, x = x ^^^ (0x3f ^^^ 0x3f) := fun x => (Nat.xor_zero x).symm
    simp only [check, data, par0, combine_xor, Nat.shiftRight_xor_distrib,
      Nat.and_xor_distrib_right, Nat.shiftLeft_xor_distrib]
    exact ⟨(hconst _).trans (by ac_rfl), by ac_rfl⟩
  obtain ⟨hcheck, hdata⟩ := encoded c hc
  obtain ⟨h0, h1, h2⟩ := vbiHam24p_eq c
  rw [unham, vbiUnham24p_eq, disturb]
  simp only [UInt8.toNat_xor, h0, h1, h2, UInt8.toNat_ofNat']
  rw [corrected, (hxor _ _ _ _ _ _).1, (hxor _ _ _ _ _ _).2, hcheck, hdata, Nat.zero_xor,
    BitVec.ofNat_xor, BitVec.xor_assoc]
  rfl

/-- The decoder returns the data of a word of which no bit or one bit is wrong, and refuses a
word of which two bits are wrong. -/
theorem hamming24_corrects (hc : c < 2 ^ 18) :
    unham (vbiHam24p c) = BitVec.ofNat 32 c ∧
      (∀ i < 24, unham (disturb (2 ^ i) (vbiHam24p c)) = BitVec.ofNat 32 c) ∧
      ∀ i < 24, ∀ j < i, (unham (disturb (2 ^ i ^^^ 2 ^ j) (vbiHam24p c))).msb = true := by
  have herrors : effect (0 % 256) ((0 >>> 8) % 256) ((0 >>> 16) % 256) = 0#32 ∧
      (∀ i < 24, effect (2 ^ i % 256) ((2 ^ i >>> 8) % 256) ((2 ^ i >>> 16) % 256) = 0#32) ∧
      ∀ i < 24, ∀ j < i, (effect ((2 ^ i ^^^ 2 ^ j) % 256) (((2 ^ i ^^^ 2 ^ j) >>> 8) % 256)
        (((2 ^ i ^^^ 2 ^ j) >>> 16) % 256)).msb = true := by
    decide +kernel
  obtain ⟨hnone, hsingle, hdouble⟩ := herrors
  have hmsb : (BitVec.ofNat 32 c).msb = false := by
    rw [BitVec.msb_eq_false_iff_two_mul_lt, BitVec.toNat_ofNat]
    omega
  refine ⟨?_, fun i hi => ?_, fun i hi j hj => ?_⟩
  · have h := unham_disturb hc 0
    rw [hnone, BitVec.xor_zero] at h
    rw [← h, disturb]
    simp
  · rw [unham_disturb hc, hsingle i hi, BitVec.xor_zero]
  · rw [unham_disturb hc, BitVec.msb_xor, hmsb, hdouble i hi j hj]
    rfl

/-- The word of the greatest triplet. -/
theorem hamming24_corrects_max : unham (disturb (2 ^ 23) (vbiHam24p 0x3ffff)) = 0x3ffff :=
  (hamming24_corrects (by decide)).2.1 23 (by decide)

end Hamming24Coding
