import Mathlib.Logic.Relation
import Mathlib.Tactic.Ring
import Zvbi.Hamming

/-!
# Conversion of a DRCS page

The 24 packets of a page are 48 pattern transfer units (PTUs) of 20 bytes. A
character of 12x10 pixels takes one, two or four of them, depending on its mode,
and is stored in 60 bytes. The loop advances a source pointer, a destination
pointer and the number of the character separately in each mode. Here the pointers
are offsets from packet 1 and from the first character, and whatever follows in
memory has offsets as well.
-/

namespace DrcsConversion
open Hamming

/-- `enum ttx_drcs_mode` of the modes which have data, and all others. -/
def drcsMode12x10x1 : UInt8 := 0
def drcsMode12x10x2 : UInt8 := 1
def drcsMode12x10x4 : UInt8 := 2
def drcsMode6x5x4 : UInt8 := 3

abbrev Raw := Nat → UInt8

/-- `expand[i]`, with four bits for each of six pixels. -/
def expand (i : Nat) : Nat :=
  (List.range 6).foldl (fun n j => if i &&& (0x20 >>> j) ≠ 0 then n ||| 1 <<< (j * 4) else n) 0

def badByte (raw : Raw) (a : Nat) : Bool :=
  vbiUnpar8 (raw a) < 0x40

/-- The body of the loop over the packets, for packet `i + 1`. -/
def markPacket (lopPackets : Nat) (raw : Raw) (invalid : BitVec 64) (i : Nat) : BitVec 64 :=
  if lopPackets &&& (2 <<< i) ≠ 0 then
    let invalid :=
      if (List.range' 0 20).any fun j => badByte raw (40 * i + j) then
        invalid ||| 1#64 <<< (i * 2)
      else
        invalid
    if (List.range' 20 20).any fun j => badByte raw (40 * i + j) then
      invalid ||| 1#64 <<< (i * 2 + 1)
    else
      invalid
  else
    invalid ||| 3#64 <<< (i * 2)

/-- `invalid` before the characters are converted. -/
def findInvalid (lopPackets : Nat) (raw : Raw) : BitVec 64 :=
  (List.range 24).foldl (markPacket lopPackets raw) 0#64

/-- The variables of the loop over the characters. -/
structure State where
  i : Nat
  p : Nat
  d : Nat
  invalid : BitVec 64

structure Conversion where
  i : Nat
  reads : List Nat
  stores : List (Nat × UInt8)

/-- The six pixels of byte `j` from `n` PTUs. -/
def sixPixels (raw : Raw) (p n j : Nat) : Nat :=
  ((List.range n).map fun b => expand ((raw (p + j + 20 * b)).toNat &&& 0x3F) * 2 ^ b).sum

/-- The bytes read for `n` PTUs. -/
def ptuReads (p n : Nat) : List Nat :=
  (List.range 20).flatMap fun j => (List.range n).map fun b => p + j + 20 * b

/-- The bytes stored for `n` PTUs. -/
def ptuStores (raw : Raw) (p d n : Nat) : List (Nat × UInt8) :=
  (List.range 20).flatMap fun j =>
    (List.range 3).map fun m => (d + 3 * j + m, UInt8.ofNat (sixPixels raw p n j >>> (8 * m)))

/-- `DRCS_MODE_12_10_1`, which does not look at `invalid`. -/
def convertSingle (raw : Raw) (s : State) : Conversion × State :=
  (⟨s.i, ptuReads s.p 1, ptuStores raw s.p s.d 1⟩, ⟨s.i + 1, s.p + 20, s.d + 60, s.invalid⟩)

/-- The modes with `n` PTUs, where `mask` has as many bits. -/
def convertMulti (raw : Raw) (n : Nat) (mask : BitVec 64) (s : State) : Conversion × State :=
  if s.invalid &&& mask <<< s.i ≠ 0#64 then
    (⟨s.i, [], []⟩, ⟨s.i + n, s.p + 20 * n, s.d + 60 * n, s.invalid ||| mask <<< s.i⟩)
  else
    (⟨s.i, ptuReads s.p n, ptuStores raw s.p s.d n⟩,
      ⟨s.i + n, s.p + 20 * n, s.d + 60 * n, s.invalid⟩)

/-- `DRCS_MODE_12_10_2`. -/
def convertDouble (raw : Raw) (s : State) : Conversion × State := convertMulti raw 2 3#64 s

/-- `DRCS_MODE_12_10_4`. -/
def convertQuadruple (raw : Raw) (s : State) : Conversion × State := convertMulti raw 4 15#64 s

def sixWidePixels (raw : Raw) (p : Nat) : Nat :=
  ((List.range 4).map fun b => expand ((raw (p + b)).toNat &&& 0x3F) * 2 ^ b).sum

/-- `DRCS_MODE_6_5_4`. The pointers are advanced in the loop over `j`. -/
def convertWide (raw : Raw) (s : State) : Conversion × State :=
  (⟨s.i,
    (List.range 20).flatMap fun j => (List.range 4).map fun b => s.p + 4 * j + b,
    (List.range 20).flatMap fun j =>
      (List.range 6).map fun m =>
        (s.d + 6 * j + m,
          UInt8.ofNat ((sixWidePixels raw (s.p + 4 * j) >>> (4 * m) &&& 15) * 0x11))⟩,
    ⟨s.i + 1, s.p + 4 * 20, s.d + 6 * 20, s.invalid⟩)

def skipPtu (s : State) : Conversion × State :=
  (⟨s.i, [], []⟩, ⟨s.i + 1, s.p + 20, s.d + 60, s.invalid ||| 1#64 <<< s.i⟩)

def convertOne (mode : Nat → UInt8) (raw : Raw) (s : State) : Conversion × State :=
  if mode s.i = drcsMode12x10x1 then convertSingle raw s
  else if mode s.i = drcsMode12x10x2 then convertDouble raw s
  else if mode s.i = drcsMode12x10x4 then convertQuadruple raw s
  else if mode s.i = drcsMode6x5x4 then convertWide raw s
  else skipPtu s

def drcsPtusPerPage : Nat := 48

def convertLoop (mode : Nat → UInt8) (raw : Raw) : Nat → State → List Conversion × State
  | 0, s => ([], s)
  | fuel + 1, s =>
    if s.i < drcsPtusPerPage then
      let rest := convertLoop mode raw fuel (convertOne mode raw s).2
      ((convertOne mode raw s).1 :: rest.1, rest.2)
    else
      ([], s)

/-- `convert_drcs()`: what it did, and `invalid`. -/
def convertDrcs (lopPackets : Nat) (mode : Nat → UInt8) (raw : Raw) :
    List Conversion × BitVec 64 :=
  let r := convertLoop mode raw drcsPtusPerPage ⟨0, 0, 0, findInvalid lopPackets raw⟩
  (r.1, r.2.invalid)

def storeAll (chars : Nat → UInt8) (stores : List (Nat × UInt8)) : Nat → UInt8 :=
  stores.foldl (fun chars w a => if a = w.1 then w.2 else chars a) chars

/-- `chars` after the conversion. -/
def convertedChars (chars : Nat → UInt8) (lopPackets : Nat) (mode : Nat → UInt8) (raw : Raw) :
    Nat → UInt8 :=
  storeAll chars ((convertDrcs lopPackets mode raw).1.flatMap Conversion.stores)

/-- The bit of pixel `k` in a PTU, which has six pixels in a byte from left to right. -/
def ptuPixel (raw : Raw) (ptu k : Nat) : Nat :=
  if (raw (20 * ptu + k / 6)).toNat.testBit (5 - k % 6) then 1 else 0

/-- Pixel `k` of a character in `n` PTUs starting with `ptu`. -/
def pixel (raw : Raw) (n ptu k : Nat) : Nat :=
  ((List.range n).map fun b => ptuPixel raw (ptu + b) k * 2 ^ b).sum

def pixelPair (raw : Raw) (n ptu k : Nat) : UInt8 :=
  UInt8.ofNat (pixel raw n ptu (2 * k) + 16 * pixel raw n ptu (2 * k + 1))

def ptuCount (mode : UInt8) : Nat :=
  if mode = drcsMode12x10x2 then 2 else if mode = drcsMode12x10x4 then 4 else 1

/-- PTU number `n` has an error. -/
def badPtu (lopPackets : Nat) (raw : Raw) (n : Nat) : Prop :=
  lopPackets.testBit (n / 2 + 1) = false ∨ ∃ j < 20, badByte raw (20 * n + j) = true

/-- Only the bytes of PTU `i` and those behind it are read, up to the end of packet
24, and only the bytes of character `i` are stored. -/
structure Bounded (e : Conversion) : Prop where
  reads : ∀ a ∈ e.reads, 20 * e.i ≤ a ∧ a < 24 * 40
  stores : ∀ w ∈ e.stores, 60 * e.i ≤ w.1 ∧ w.1 < 60 * e.i + 60

/-- All characters stay in their bounds, and those which are converted have the pixels
of the PTUs at their number. -/
structure Proper (lopPackets : Nat) (mode : Nat → UInt8) (raw : Raw) : Prop where
  bounded : ∀ e ∈ (convertDrcs lopPackets mode raw).1, Bounded e
  pixels : ∀ e ∈ (convertDrcs lopPackets mode raw).1, e.reads ≠ [] → ∀ chars, ∀ k < 60,
    convertedChars chars lopPackets mode raw (60 * e.i + k) =
      pixelPair raw (ptuCount (mode e.i)) e.i k

/-- `j` is the character after `i`. -/
def Next (mode : Nat → UInt8) (i j : Nat) : Prop := j = i + ptuCount (mode i)

/-- A character starts at PTU `i`. -/
def Starts (mode : Nat → UInt8) (i : Nat) : Prop :=
  i < drcsPtusPerPage ∧ Relation.ReflTransGen (Next mode) 0 i

/-- The character has a mode with as many pixels as the others, and if it needs
PTUs behind the last one, one of those it has is bad. -/
def Fits (lopPackets : Nat) (mode : Nat → UInt8) (raw : Raw) (i : Nat) : Prop :=
  mode i ≠ drcsMode6x5x4 ∧ (drcsPtusPerPage < i + ptuCount (mode i) →
    ∃ n, i ≤ n ∧ n < drcsPtusPerPage ∧ badPtu lopPackets raw n)

/-- The lowest `n` bits. -/
def IsMask (mask : BitVec 64) (n : Nat) : Prop := ∀ k, mask.getLsbD k = decide (k < n)

variable {n i lopPackets : Nat} {mask : BitVec 64} {mode : Nat → UInt8} {raw : Raw} {s : State}

theorem isMask_ofNat (h : n ≤ 64) : IsMask (BitVec.ofNat 64 (2 ^ n - 1)) n := by
  intro k
  rw [BitVec.getLsbD_ofNat, Nat.testBit_two_pow_sub_one]
  by_cases hk : k < n
  · simp only [hk, Nat.lt_of_lt_of_le hk h, decide_true, Bool.and_self]
  · simp only [hk, decide_false, Bool.and_false]

theorem isMask_one : IsMask 1#64 1 := isMask_ofNat (n := 1) (by decide)

theorem isMask_three : IsMask 3#64 2 := isMask_ofNat (n := 2) (by decide)

theorem isMask_fifteen : IsMask 15#64 4 := isMask_ofNat (n := 4) (by decide)

theorem shiftedMask_bit (hmask : IsMask mask n) (i k : Nat) :
    (mask <<< i).getLsbD k = true ↔ k < 64 ∧ i ≤ k ∧ k < i + n := by
  rw [BitVec.getLsbD_shiftLeft, hmask]
  simp only [Bool.and_eq_true, Bool.not_eq_true', decide_eq_true_eq, decide_eq_false_iff_not]
  omega

theorem setMask_bit (hmask : IsMask mask n) (invalid : BitVec 64) (i k : Nat) :
    (invalid ||| mask <<< i).getLsbD k = true ↔
      invalid.getLsbD k = true ∨ k < 64 ∧ i ≤ k ∧ k < i + n := by
  rw [BitVec.getLsbD_or, Bool.or_eq_true, shiftedMask_bit hmask]

theorem testMask (hmask : IsMask mask n) (invalid : BitVec 64) (i : Nat) :
    invalid &&& mask <<< i ≠ 0#64 ↔
      ∃ k, i ≤ k ∧ k < i + n ∧ invalid.getLsbD k = true := by
  constructor
  · intro h
    by_contra hnone
    apply h
    apply BitVec.eq_of_getLsbD_eq
    intro k _
    rw [BitVec.getLsbD_and, BitVec.getLsbD_zero, Bool.and_eq_false_iff]
    by_contra hk
    rw [not_or, Bool.not_eq_false, Bool.not_eq_false, shiftedMask_bit hmask] at hk
    exact hnone ⟨k, hk.2.2.1, hk.2.2.2, hk.1⟩
  · rintro ⟨k, hlow, hhigh, hbit⟩ hzero
    have hsmall : k < 64 := BitVec.lt_of_getLsbD hbit
    have hboth : (invalid &&& mask <<< i).getLsbD k = true := by
      rw [BitVec.getLsbD_and, hbit, Bool.true_and, shiftedMask_bit hmask]
      exact ⟨hsmall, hlow, hhigh⟩
    rw [hzero, BitVec.getLsbD_zero] at hboth
    cases hboth

theorem packet_present (lopPackets i : Nat) :
    lopPackets &&& (2 <<< i) ≠ 0 ↔ lopPackets.testBit (i + 1) = true := by
  have hpower : (2 <<< i : Nat) = 2 ^ (i + 1) := by
    rw [Nat.shiftLeft_eq, Nat.pow_succ, Nat.mul_comm]
  rw [hpower, Nat.and_two_pow]
  cases lopPackets.testBit (i + 1) with
  | true => simp only [Bool.toNat_true, Nat.one_mul, ne_eq, Nat.pow_eq_zero, OfNat.ofNat_ne_zero,
      false_and, not_false_eq_true]
  | false => simp only [Bool.toNat_false, Nat.zero_mul, ne_eq, not_true_eq_false,
      Bool.false_eq_true]

theorem badHalf (raw : Raw) (i h : Nat) :
    ((List.range' (20 * h) 20).any fun j => badByte raw (40 * i + j)) = true ↔
      ∃ j < 20, badByte raw (20 * (2 * i + h) + j) = true := by
  rw [List.any_eq_true]
  constructor
  · rintro ⟨j, hj, hbad⟩
    rw [List.mem_range'_1] at hj
    refine ⟨j - 20 * h, by omega, ?_⟩
    have heq : 20 * (2 * i + h) + (j - 20 * h) = 40 * i + j := by omega
    rw [heq]
    exact hbad
  · rintro ⟨j, hj, hbad⟩
    refine ⟨20 * h + j, List.mem_range'_1.mpr (by omega), ?_⟩
    have heq : 40 * i + (20 * h + j) = 20 * (2 * i + h) + j := by omega
    rw [heq]
    exact hbad

theorem markPacket_bit (lopPackets : Nat) (raw : Raw) (invalid : BitVec 64) (hi : i < 24)
    (k : Nat) : (markPacket lopPackets raw invalid i).getLsbD k = true ↔
      invalid.getLsbD k = true ∨ k / 2 = i ∧ badPtu lopPackets raw k := by
  have hfirst := badHalf raw i 0
  have hsecond := badHalf raw i 1
  rw [Nat.mul_zero, Nat.add_zero] at hfirst
  rw [Nat.mul_one] at hsecond
  have hbit : k / 2 = i → (badPtu lopPackets raw k ↔
      lopPackets.testBit (i + 1) = false ∨ ∃ j < 20, badByte raw (20 * k + j) = true) := by
    rintro rfl
    exact Iff.rfl
  rw [markPacket]
  split
  · rename_i hpresent
    rw [packet_present] at hpresent
    dsimp only
    have hptu : k / 2 = i ∧ badPtu lopPackets raw k ↔
        (k = 2 * i ∧ ∃ j < 20, badByte raw (20 * (2 * i) + j) = true) ∨
        (k = 2 * i + 1 ∧ ∃ j < 20, badByte raw (20 * (2 * i + 1) + j) = true) := by
      constructor
      · rintro ⟨hk, hbad⟩
        rw [hbit hk, hpresent] at hbad
        rcases hbad with hnone | hbad
        · cases hnone
        · rcases Nat.even_or_odd' k with ⟨n, rfl | rfl⟩
          · obtain rfl : n = i := by omega
            exact Or.inl ⟨rfl, hbad⟩
          · obtain rfl : n = i := by omega
            exact Or.inr ⟨rfl, hbad⟩
      · rintro (⟨rfl, hbad⟩ | ⟨rfl, hbad⟩)
        · have hk : 2 * i / 2 = i := by omega
          exact ⟨hk, (hbit hk).mpr (Or.inr hbad)⟩
        · have hk : (2 * i + 1) / 2 = i := by omega
          exact ⟨hk, (hbit hk).mpr (Or.inr hbad)⟩
    rw [hptu, ← hfirst, ← hsecond]
    have hone : ∀ h k : Nat, h < 2 →
        (k < 64 ∧ i * 2 + h ≤ k ∧ k < i * 2 + h + 1 ↔ k = 2 * i + h) := by omega
    have hzero := hone 0 k (by decide)
    rw [Nat.add_zero, Nat.add_zero] at hzero
    split <;> rename_i h1 <;> split <;> rename_i h0
    all_goals
      simp only [setMask_bit isMask_one, hzero, hone 1 k (by decide), h0, h1, and_true, and_false,
        or_false, false_or, or_assoc, Nat.add_zero, Bool.false_eq_true]
  · rename_i habsent
    rw [packet_present, Bool.not_eq_true] at habsent
    rw [setMask_bit isMask_three]
    apply or_congr_right
    constructor
    · rintro ⟨-, hlow, hhigh⟩
      have hk : k / 2 = i := by omega
      exact ⟨hk, (hbit hk).mpr (Or.inl habsent)⟩
    · rintro ⟨hk, -⟩
      omega

theorem findInvalid_bit (lopPackets : Nat) (raw : Raw) (k : Nat) :
    (findInvalid lopPackets raw).getLsbD k = true ↔
      k < drcsPtusPerPage ∧ badPtu lopPackets raw k := by
  have hfold : ∀ n, n ≤ 24 →
      (((List.range n).foldl (markPacket lopPackets raw) 0#64).getLsbD k = true ↔
        k / 2 < n ∧ badPtu lopPackets raw k) := by
    intro n hn
    induction n with
    | zero =>
      rw [List.range_zero, List.foldl_nil, BitVec.getLsbD_zero]
      simp only [Bool.false_eq_true, Nat.not_lt_zero, false_and]
    | succ n ih =>
      rw [List.range_succ, List.foldl_append, List.foldl_cons, List.foldl_nil,
        markPacket_bit lopPackets raw _ (by omega), ih (by omega), Nat.lt_succ_iff_lt_or_eq,
        or_and_right]
  rw [findInvalid, hfold 24 le_rfl]
  have hcount : k / 2 < 24 ↔ k < drcsPtusPerPage := by
    unfold drcsPtusPerPage
    omega
  rw [hcount]

/-- Pixel `m` of the six in a byte. -/
def bytePixel (c m : Nat) : Nat := if c.testBit (5 - m) then 1 else 0

theorem expand_pixels : ∀ c < 64, expand c =
    bytePixel c 0 + 16 * bytePixel c 1 + 16 ^ 2 * bytePixel c 2 + 16 ^ 3 * bytePixel c 3 +
      16 ^ 4 * bytePixel c 4 + 16 ^ 5 * bytePixel c 5 := by
  decide

theorem bytePixel_low (c m : Nat) : bytePixel (c &&& 0x3F) m = bytePixel c m := by
  have hmask : (0x3F : Nat).testBit (5 - m) = true := by
    have hlow : ∀ k ≤ 5, (0x3F : Nat).testBit k = true := by decide
    exact hlow _ (Nat.sub_le 5 m)
  rw [bytePixel, bytePixel, Nat.testBit_and, hmask, Bool.and_true]

variable {m a : Nat}

theorem ptuPixel_byte (raw : Raw) (ptu j : Nat) (hm : m < 6) :
    ptuPixel raw ptu (6 * j + m) = bytePixel (raw (20 * ptu + j)).toNat m := by
  have hdiv : (6 * j + m) / 6 = j := by omega
  have hmod : (6 * j + m) % 6 = m := by omega
  rw [ptuPixel, bytePixel, hdiv, hmod]

theorem pixel_succ (raw : Raw) (n ptu k : Nat) :
    pixel raw (n + 1) ptu k = pixel raw n ptu k + ptuPixel raw (ptu + n) k * 2 ^ n := by
  rw [pixel, List.range_succ, List.map_append, List.sum_append]
  rfl

theorem sixPixels_succ (raw : Raw) (p n j : Nat) : sixPixels raw p (n + 1) j =
    sixPixels raw p n j + expand ((raw (p + j + 20 * n)).toNat &&& 0x3F) * 2 ^ n := by
  rw [sixPixels, List.range_succ, List.map_append, List.sum_append]
  rfl

theorem ptuPixel_le (raw : Raw) (ptu k : Nat) : ptuPixel raw ptu k ≤ 1 := by
  rw [ptuPixel]
  split <;> decide

theorem pixel_lt (raw : Raw) (n ptu k : Nat) : pixel raw n ptu k < 2 ^ n := by
  induction n with
  | zero => exact Nat.one_pos
  | succ n ih =>
    have hbit : ptuPixel raw (ptu + n) k * 2 ^ n ≤ 1 * 2 ^ n :=
      Nat.mul_le_mul_right _ (ptuPixel_le raw (ptu + n) k)
    rw [pixel_succ, Nat.pow_succ]
    omega

/-- Adding the bits of another PTU carries nothing into the next pixel. -/
theorem sixPixels_eq (raw : Raw) (n i j : Nat) : sixPixels raw (20 * i) n j =
    pixel raw n i (6 * j + 0) + 16 * pixel raw n i (6 * j + 1) +
      16 ^ 2 * pixel raw n i (6 * j + 2) + 16 ^ 3 * pixel raw n i (6 * j + 3) +
      16 ^ 4 * pixel raw n i (6 * j + 4) + 16 ^ 5 * pixel raw n i (6 * j + 5) := by
  induction n with
  | zero => rfl
  | succ n ih =>
    have hbyte : 20 * i + j + 20 * n = 20 * (i + n) + j := by omega
    have hsmall : (raw (20 * (i + n) + j)).toNat &&& 0x3F < 64 :=
      Nat.lt_succ_of_le Nat.and_le_right
    rw [sixPixels_succ, ih, hbyte, expand_pixels _ hsmall]
    simp only [pixel_succ, bytePixel_low, ptuPixel_byte _ _ _ (by decide : 0 < 6),
      ptuPixel_byte _ _ _ (by decide : 1 < 6), ptuPixel_byte _ _ _ (by decide : 2 < 6),
      ptuPixel_byte _ _ _ (by decide : 3 < 6), ptuPixel_byte _ _ _ (by decide : 4 < 6),
      ptuPixel_byte _ _ _ (by decide : 5 < 6)]
    ring

theorem sixPixels_byte (raw : Raw) (hn : n ≤ 4) (i j : Nat) (hm : m < 3) :
    UInt8.ofNat (sixPixels raw (20 * i) n j >>> (8 * m)) = pixelPair raw n i (3 * j + m) := by
  have hlt : ∀ k, pixel raw n i k < 16 := by
    intro k
    exact Nat.lt_of_lt_of_le (pixel_lt raw n i k) (Nat.pow_le_pow_right (by decide) hn)
  have h0 := hlt (6 * j + 0)
  have h1 := hlt (6 * j + 1)
  have h2 := hlt (6 * j + 2)
  have h3 := hlt (6 * j + 3)
  have h4 := hlt (6 * j + 4)
  have h5 := hlt (6 * j + 5)
  have heven : 2 * (3 * j + m) = 6 * j + 2 * m := by omega
  have hodd : 6 * j + 2 * m + 1 = 6 * j + (2 * m + 1) := by omega
  apply UInt8.toNat_inj.mp
  rw [pixelPair, UInt8.toNat_ofNat', UInt8.toNat_ofNat', sixPixels_eq, Nat.shiftRight_eq_div_pow,
    heven, hodd]
  rcases (by omega : m = 0 ∨ m = 1 ∨ m = 2) with rfl | rfl | rfl
  all_goals
    simp only [Nat.mul_zero, Nat.mul_one, Nat.zero_add, Nat.add_zero, Nat.reduceMul, Nat.reduceAdd,
      Nat.reducePow] at *
    omega

/-- The pointers are where the number of the character says, and `invalid` is as it was
for the PTUs ahead. -/
structure Aligned (lopPackets : Nat) (raw : Raw) (s : State) : Prop where
  source : s.p = 20 * s.i
  dest : s.d = 60 * s.i
  ahead : ∀ k, s.i ≤ k → (s.invalid.getLsbD k = true ↔
    (findInvalid lopPackets raw).getLsbD k = true)

structure InPlace (mode : Nat → UInt8) (raw : Raw) (e : Conversion) : Prop extends Bounded e where
  pixels : ∀ w ∈ e.stores, ∃ k < 60, w = (60 * e.i + k, pixelPair raw (ptuCount (mode e.i)) e.i k)
  complete : e.reads ≠ [] → ∀ k < 60, ∃ w ∈ e.stores, w.1 = 60 * e.i + k

theorem mem_ptuReads {p : Nat} (h : a ∈ ptuReads p n) : p ≤ a ∧ a < p + 20 * n := by
  rw [ptuReads, List.mem_flatMap] at h
  obtain ⟨j, hj, h⟩ := h
  rw [List.mem_map] at h
  obtain ⟨b, hb, rfl⟩ := h
  rw [List.mem_range] at hj hb
  omega

theorem last_ptuReads (p : Nat) (hn : 0 < n) : p + 20 * n - 1 ∈ ptuReads p n := by
  rw [ptuReads, List.mem_flatMap]
  refine ⟨19, List.mem_range.mpr (by decide), ?_⟩
  rw [List.mem_map]
  exact ⟨n - 1, List.mem_range.mpr (by omega), by omega⟩

theorem mem_ptuStores (raw : Raw) (hn : n ≤ 4) (i : Nat) (w : Nat × UInt8) :
    w ∈ ptuStores raw (20 * i) (60 * i) n ↔ ∃ k < 60, w = (60 * i + k, pixelPair raw n i k) := by
  rw [ptuStores, List.mem_flatMap]
  constructor
  · rintro ⟨j, hj, h⟩
    rw [List.mem_map] at h
    obtain ⟨m, hm, rfl⟩ := h
    rw [List.mem_range] at hj hm
    refine ⟨3 * j + m, by omega, ?_⟩
    rw [sixPixels_byte raw hn i j hm, Nat.add_assoc]
  · rintro ⟨k, hk, rfl⟩
    refine ⟨k / 3, List.mem_range.mpr (by omega), ?_⟩
    rw [List.mem_map]
    refine ⟨k % 3, List.mem_range.mpr (by omega), ?_⟩
    have hsplit : 3 * (k / 3) + k % 3 = k := Nat.div_add_mod k 3
    rw [sixPixels_byte raw hn i _ (by omega), Nat.add_assoc, hsplit]

theorem ptus_inPlace (raw : Raw) (hn : n ≤ 4) (hcount : ptuCount (mode i) = n)
    (hfits : i + n ≤ drcsPtusPerPage) :
    InPlace mode raw ⟨i, ptuReads (20 * i) n, ptuStores raw (20 * i) (60 * i) n⟩ := by
  have hstores := mem_ptuStores raw hn i
  unfold drcsPtusPerPage at hfits
  refine ⟨⟨?_, ?_⟩, ?_, ?_⟩
  · intro a ha
    have hrange := mem_ptuReads ha
    dsimp only
    omega
  · intro w hw
    obtain ⟨k, hk, rfl⟩ := (hstores w).mp hw
    dsimp only
    omega
  · intro w hw
    dsimp only
    rw [hcount]
    exact (hstores w).mp hw
  · intro _ k hk
    exact ⟨_, (hstores _).mpr ⟨k, hk, rfl⟩, rfl⟩

theorem skip_inPlace (mode : Nat → UInt8) (raw : Raw) (i : Nat) : InPlace mode raw ⟨i, [], []⟩ := by
  refine ⟨⟨?_, ?_⟩, ?_, fun h => absurd rfl h⟩
  all_goals
    intro a ha
    cases ha

theorem Aligned.test (hs : Aligned lopPackets raw s) (hmask : IsMask mask n) :
    s.invalid &&& mask <<< s.i ≠ 0#64 ↔
      ∃ k, s.i ≤ k ∧ k < s.i + n ∧ k < drcsPtusPerPage ∧ badPtu lopPackets raw k := by
  rw [testMask hmask]
  apply exists_congr
  intro k
  apply and_congr_right
  intro hk
  rw [hs.ahead k hk, findInvalid_bit]

/-- Skipping `n` PTUs, whose bits may be set. -/
theorem Aligned.advance (hs : Aligned lopPackets raw s) {invalid : BitVec 64}
    (h : ∀ k, s.i + n ≤ k → (invalid.getLsbD k = true ↔ s.invalid.getLsbD k = true)) :
    Aligned lopPackets raw ⟨s.i + n, s.p + 20 * n, s.d + 60 * n, invalid⟩ := by
  refine ⟨?_, ?_, ?_⟩
  · dsimp only
    rw [hs.source, Nat.mul_add]
  · dsimp only
    rw [hs.dest, Nat.mul_add]
  · intro k hk
    dsimp only at hk ⊢
    rw [h k hk]
    exact hs.ahead k (Nat.le_of_add_right_le hk)

theorem Aligned.advance_set (hs : Aligned lopPackets raw s) (hmask : IsMask mask n) :
    Aligned lopPackets raw ⟨s.i + n, s.p + 20 * n, s.d + 60 * n, s.invalid ||| mask <<< s.i⟩ := by
  apply hs.advance
  intro k hk
  rw [setMask_bit hmask]
  apply or_iff_left
  omega

structure Kept (lopPackets : Nat) (mode : Nat → UInt8) (raw : Raw) (i : Nat)
    (r : Conversion × State) : Prop where
  inPlace : InPlace mode raw r.1
  aligned : Aligned lopPackets raw r.2
  next : r.2.i = i + ptuCount (mode i)

theorem convertMulti_kept (hs : Aligned lopPackets raw s) (hmask : IsMask mask n) (hn : n ≤ 4)
    (hcount : ptuCount (mode s.i) = n) (hfits : Fits lopPackets mode raw s.i) :
    Kept lopPackets mode raw s.i (convertMulti raw n mask s) := by
  have htest := hs.test hmask
  rw [convertMulti]
  split
  · exact ⟨skip_inPlace mode raw s.i, hs.advance_set hmask, congrArg (s.i + ·) hcount.symm⟩
  · rename_i hgood
    refine ⟨?_, hs.advance fun _ _ => Iff.rfl, congrArg (s.i + ·) hcount.symm⟩
    rw [hs.source, hs.dest]
    apply ptus_inPlace raw hn hcount
    by_contra hlong
    rw [not_le] at hlong
    obtain ⟨k, hlow, hhigh, hbad⟩ := hfits.2 (by rwa [hcount])
    exact hgood (htest.mpr ⟨k, hlow, Nat.lt_trans hhigh hlong, hhigh, hbad⟩)

theorem convertOne_kept (hs : Aligned lopPackets raw s) (hi : s.i < drcsPtusPerPage)
    (hfits : Fits lopPackets mode raw s.i) :
    Kept lopPackets mode raw s.i (convertOne mode raw s) := by
  rw [convertOne]
  split
  · rename_i hmode
    have hcount : ptuCount (mode s.i) = 1 := by rw [hmode]; rfl
    refine ⟨?_, hs.advance fun _ _ => Iff.rfl, congrArg (s.i + ·) hcount.symm⟩
    rw [convertSingle, hs.source, hs.dest]
    exact ptus_inPlace raw (by decide) hcount hi
  · split
    · rename_i hmode
      exact convertMulti_kept hs isMask_three (by decide) (by rw [hmode]; rfl) hfits
    · split
      · rename_i hmode
        exact convertMulti_kept hs isMask_fifteen (by decide) (by rw [hmode]; rfl) hfits
      · rename_i h2 h4
        have hcount : ptuCount (mode s.i) = 1 := by rw [ptuCount, if_neg h2, if_neg h4]
        rw [if_neg hfits.1]
        exact ⟨skip_inPlace mode raw s.i, hs.advance_set isMask_one,
          congrArg (s.i + ·) hcount.symm⟩

theorem convertMulti_fits (hs : Aligned lopPackets raw s) (hmask : IsMask mask n) (hn : 0 < n)
    (hbounded : Bounded (convertMulti raw n mask s).1) (hlong : drcsPtusPerPage < s.i + n) :
    ∃ k, s.i ≤ k ∧ k < drcsPtusPerPage ∧ badPtu lopPackets raw k := by
  have htest := hs.test hmask
  rw [convertMulti] at hbounded
  split at hbounded
  · rename_i hbad
    obtain ⟨k, hlow, -, hhigh, hk⟩ := htest.mp hbad
    exact ⟨k, hlow, hhigh, hk⟩
  · have hlast := (hbounded.reads _ (last_ptuReads s.p hn)).2
    rw [hs.source] at hlast
    unfold drcsPtusPerPage at hlong
    omega

/-- The bounds are left only where the character does not fit. -/
theorem convertOne_fits (hs : Aligned lopPackets raw s) (hi : s.i < drcsPtusPerPage)
    (hbounded : Bounded (convertOne mode raw s).1) : Fits lopPackets mode raw s.i := by
  rw [convertOne] at hbounded
  split at hbounded
  · rename_i hmode
    rw [Fits, hmode]
    exact ⟨by decide, fun hlong => absurd hlong (Nat.not_lt.mpr hi)⟩
  · split at hbounded
    · rename_i hmode
      rw [Fits, hmode]
      exact ⟨by decide, convertMulti_fits hs isMask_three (by decide) hbounded⟩
    · split at hbounded
      · rename_i hmode
        rw [Fits, hmode]
        exact ⟨by decide, convertMulti_fits hs isMask_fifteen (by decide) hbounded⟩
      · rename_i h2 h4
        split at hbounded
        · -- The 61st byte is already one of the next character.
          have hmem : (s.d + 6 * 10 + 0,
              UInt8.ofNat ((sixWidePixels raw (s.p + 4 * 10) >>> (4 * 0) &&& 15) * 0x11)) ∈
              (convertWide raw s).1.stores := by
            rw [convertWide, List.mem_flatMap]
            refine ⟨10, List.mem_range.mpr (by decide), ?_⟩
            rw [List.mem_map]
            exact ⟨0, List.mem_range.mpr (by decide), rfl⟩
          have hstore := (hbounded.stores _ hmem).2
          have hdest := hs.dest
          change s.d + 6 * 10 + 0 < 60 * s.i + 60 at hstore
          omega
        · rename_i h5
          refine ⟨h5, fun hlong => ?_⟩
          rw [ptuCount, if_neg h2, if_neg h4] at hlong
          exact absurd hlong (Nat.not_lt.mpr hi)

theorem ptuCount_pos (mode : UInt8) : 0 < ptuCount mode := by
  rw [ptuCount]
  split
  · decide
  · split <;> decide

theorem next_le {j : Nat} (h : Relation.ReflTransGen (Next mode) i j) : i ≤ j := by
  induction h with
  | refl => exact le_rfl
  | tail _ hstep ih =>
    rw [Next] at hstep
    omega

theorem initial_aligned (lopPackets : Nat) (raw : Raw) :
    Aligned lopPackets raw ⟨0, 0, 0, findInvalid lopPackets raw⟩ :=
  ⟨rfl, rfl, fun _ _ => Iff.rfl⟩

/-- The loop over the characters from `s` on. -/
theorem convertLoop_inPlace (fuel : Nat)
    (hs : Aligned lopPackets raw s)
    (hfits : ∀ i, Relation.ReflTransGen (Next mode) s.i i → i < drcsPtusPerPage →
      Fits lopPackets mode raw i) :
    ∀ e ∈ (convertLoop mode raw fuel s).1, InPlace mode raw e := by
  induction fuel generalizing s with
  | zero =>
    intro e he
    cases he
  | succ fuel ih =>
    rw [convertLoop]
    split
    · rename_i hi
      have hkept := convertOne_kept hs hi (hfits s.i .refl hi)
      intro e he
      rcases List.mem_cons.mp he with rfl | he
      · exact hkept.inPlace
      · refine ih hkept.aligned ?_ e he
        intro i hreach
        exact hfits i (.head hkept.next hreach)
    · intro e he
      cases he

/-- If each character is in its bounds, each one fits. -/
theorem convertLoop_fits (fuel : Nat) (hs : Aligned lopPackets raw s)
    (hfuel : drcsPtusPerPage ≤ s.i + fuel)
    (hbounded : ∀ e ∈ (convertLoop mode raw fuel s).1, Bounded e) :
    ∀ i, Relation.ReflTransGen (Next mode) s.i i → i < drcsPtusPerPage →
      Fits lopPackets mode raw i := by
  induction fuel generalizing s with
  | zero =>
    intro i hreach hi
    have hle := next_le hreach
    omega
  | succ fuel ih =>
    intro i hreach hi
    have hle := next_le hreach
    rw [convertLoop, if_pos (Nat.lt_of_le_of_lt hle hi)] at hbounded
    dsimp only at hbounded
    rw [List.forall_mem_cons] at hbounded
    have hstart := convertOne_fits hs (Nat.lt_of_le_of_lt hle hi) hbounded.1
    have hkept := convertOne_kept hs (Nat.lt_of_le_of_lt hle hi) hstart
    have hpos := ptuCount_pos (mode s.i)
    have hnext := hkept.next
    rcases Relation.ReflTransGen.cases_head hreach with heq | ⟨j, hj, hreach⟩
    · rw [← heq]
      exact hstart
    · refine ih hkept.aligned (by omega) hbounded.2 i ?_ hi
      rw [hnext, ← hj]
      exact hreach

theorem storeAll_same {chars : Nat → UInt8} {stores : List (Nat × UInt8)} {v : UInt8}
    (h : ∀ w ∈ stores, w.1 = a → w.2 = v) (hv : chars a = v ∨ ∃ w ∈ stores, w.1 = a) :
    storeAll chars stores a = v := by
  induction stores generalizing chars with
  | nil =>
    rcases hv with hv | ⟨w, hw, -⟩
    · exact hv
    · cases hw
  | cons w stores ih =>
    rw [List.forall_mem_cons] at h
    rw [storeAll, List.foldl_cons]
    apply ih h.2
    by_cases hw : a = w.1
    · exact Or.inl ((if_pos hw).trans (h.1 hw.symm))
    · rcases hv with hv | ⟨w', hmem, rfl⟩
      · exact Or.inl ((if_neg hw).trans hv)
      · rcases List.mem_cons.mp hmem with rfl | hmem
        · exact absurd rfl hw
        · exact Or.inr ⟨w', hmem, rfl⟩

theorem Proper.fits (h : Proper lopPackets mode raw) (hi : Starts mode i) :
    Fits lopPackets mode raw i :=
  convertLoop_fits drcsPtusPerPage (initial_aligned lopPackets raw) (Nat.le_add_left _ _)
    h.bounded i hi.2 hi.1

/-- All characters are stored in their place, with their pixels, exactly if each of
them fits. -/
theorem proper_iff_fits (lopPackets : Nat) (mode : Nat → UInt8) (raw : Raw) :
    Proper lopPackets mode raw ↔ ∀ i, Starts mode i → Fits lopPackets mode raw i := by
  constructor
  · intro h i hi
    exact h.fits hi
  · intro hfits
    have hplace : ∀ e ∈ (convertDrcs lopPackets mode raw).1, InPlace mode raw e :=
      convertLoop_inPlace drcsPtusPerPage (initial_aligned lopPackets raw) fun i hreach hi =>
        hfits i ⟨hi, hreach⟩
    refine ⟨fun e he => (hplace e he).toBounded, ?_⟩
    intro e he hreads chars k hk
    apply storeAll_same
    · intro w hw hsame
      rw [List.mem_flatMap] at hw
      obtain ⟨e', he', hw⟩ := hw
      obtain ⟨k', hk', rfl⟩ := (hplace e' he').pixels w hw
      dsimp only at hsame ⊢
      obtain rfl : k' = k := by omega
      obtain hi : e'.i = e.i := by omega
      rw [hi]
    · right
      obtain ⟨w, hw, hsame⟩ := (hplace e he).complete hreads k hk
      exact ⟨w, List.mem_flatMap.mpr ⟨e, he, hw⟩, hsame⟩

def allPackets : Nat := 0x1FFFFFE

/-- All characters of a good page have 6x5 pixels. -/
theorem not_proper_wide : ¬ Proper allPackets (fun _ => drcsMode6x5x4) fun _ => 0x40 := by
  intro h
  exact (h.fits ⟨by decide, .refl⟩).1 rfl

end DrcsConversion
