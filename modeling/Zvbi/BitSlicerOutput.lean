import Zvbi.BitSlicer

/-!
# The bytes a bit slicer stores

The payload is stored in bits or in octets, and the size of the buffer is compared in bits with
the number of either. A payload in octets needs a buffer which is eight times as large as the
smallest one which is accepted. Nothing is stored before the framing code is found.
-/

namespace BitSlicerOutput
open BitSlicer

theorem length_storeBits (next : UInt32 → Bool → UInt32) (b : Nat → Bool) (n j : Nat)
    (c : UInt32) : (storeBits next b n j c).1.length = (j % 8 + n) / 8 := by
  induction n generalizing j c with
  | zero =>
    rw [storeBits, List.length_nil]
    omega
  | succ n ih =>
    rw [storeBits]
    dsimp only
    split
    · rw [List.length_cons, ih]
      omega
    · rw [ih]
      omega

theorem length_storeOctets (next : UInt32 → Nat → Bool → UInt32) (b : Nat → Bool) (n j : Nat)
    (c : UInt32) : (storeOctets next b n j c).length = n := by
  induction n generalizing j c with
  | zero => rfl
  | succ n ih =>
    rw [storeOctets, List.length_cons, ih]

variable {bs : Vbi3BitSlicer} {raw : Nat → UInt8}

/-- The loop over bits stores one byte more than the complete ones. -/
theorem length_payloadBytes {f : Found} :
    (payloadBytes bs raw f).length =
      if bs.endian = 3 ∨ bs.endian = 2 then bs.payload.toNat / 8 + 1 else payloadOctets bs := by
  have hbits (next : UInt32 → Bool → UInt32) (b : Nat → Bool) (c : UInt32) (last : UInt8) :
      ((storeBits next b bs.payload.toNat 0 c).1 ++ [last]).length =
        bs.payload.toNat / 8 + 1 := by
    rw [List.length_append, length_storeBits, Nat.zero_mod, Nat.zero_add, List.length_singleton]
  rw [payloadBytes]
  dsimp only
  split
  · rename_i hlsb
    rw [hbits, if_pos (Or.inl hlsb)]
  · rename_i hlsb
    split
    · rename_i hmsb
      rw [hbits, if_pos (Or.inr hmsb)]
    · rename_i hmsb
      rw [if_neg (not_or.mpr ⟨hlsb, hmsb⟩)]
      split <;> rw [length_storeOctets]

def Carries (bs : Vbi3BitSlicer) (raw : Nat → UInt8) : Prop :=
  ∃ f, (runIn bs raw).2 = some f ∧ frcWord bs raw f = bs.frc

theorem slicerFunction_carries (h : Carries bs raw) :
    (slicerFunction bs raw).ok = true ∧
      ∃ f, (slicerFunction bs raw).stored = payloadBytes bs raw f := by
  obtain ⟨f, hfound, hword⟩ := h
  simp only [slicerFunction, hfound, hword, ne_eq, not_true_eq_false, if_false]
  exact ⟨trivial, f, rfl⟩

theorem slicerFunction_fails (h : ¬Carries bs raw) :
    (slicerFunction bs raw).ok = false ∧ (slicerFunction bs raw).stored = [] := by
  cases hfound : (runIn bs raw).2 with
  | none =>
    simp only [slicerFunction, hfound]
    exact ⟨trivial, trivial⟩
  | some f =>
    have hword : frcWord bs raw f ≠ bs.frc := fun hword => h ⟨f, hfound, hword⟩
    simp only [slicerFunction, hfound, if_pos hword]
    exact ⟨trivial, trivial⟩

/-- The unit of `bs->payload` and the loop which stores it. -/
structure PayloadOf (bs : Vbi3BitSlicer) (payloadBits : UInt32) : Prop where
  octets : payloadBits.toNat % 8 = 0 →
    bs.payload.toNat = payloadBits.toNat / 8 ∧ ¬(bs.endian = 3 ∨ bs.endian = 2)
  bits : payloadBits.toNat % 8 ≠ 0 →
    bs.payload = payloadBits ∧ (bs.endian = 3 ∨ bs.endian = 2)

theorem payloadOf_setParams {phase : PhaseShift} {bs' : Vbi3BitSlicer} {p : Params}
    (h : vbi3BitSlicerSetParams phase bs p = some bs') (thresh : UInt32) :
    PayloadOf { bs' with thresh := thresh } p.payloadBits := by
  have hset := accepted h
  have hoctets : p.payloadBits &&& 7 = 0 ↔ p.payloadBits.toNat % 8 = 0 := by
    rw [← UInt32.toNat_inj, UInt32.toNat_and]
    exact Iff.of_eq (congrArg (· = 0) (Nat.and_two_pow_sub_one_eq_mod p.payloadBits.toNat 3))
  constructor
  · intro hmod
    obtain ⟨hpayload, hendian⟩ := hset.octets (hoctets.mpr hmod)
    dsimp only
    rw [hpayload]
    constructor
    · exact Nat.shiftRight_eq_div_pow p.payloadBits.toNat 3
    · rcases hendian with hendian | hendian <;> rw [hendian] <;> decide
  · intro hmod
    obtain ⟨hpayload, hendian⟩ := hset.bits (mt hoctets.mp hmod)
    exact ⟨hpayload, hendian.symm⟩

/-- The buffer is large enough for the payload if that is stored in octets. The low pass filter
stores at least one, and with none to be stored it does not come to an end. -/
def LargeEnough (bs : Vbi3BitSlicer) (payloadBits bufferSize : UInt32) : Prop :=
  payloadBits.toNat % 8 = 0 →
    payloadBits.toNat ≤ bufferSize.toNat * 8 ∧ (bs.func = .lowPassY8 → payloadBits ≠ 0)

variable {bufferSize payloadBits : UInt32}

theorem largeEnough_iff (h : PayloadOf bs payloadBits) (hsize : ¬bufferSize * 8 < bs.payload)
    (raw : Nat → UInt8) (f : Found) :
    LargeEnough bs payloadBits bufferSize ↔
      payloadBits.toNat ≤ bufferSize.toNat * 8 ∧
        (payloadBytes bs raw f).length ≤ bufferSize.toNat := by
  have hbuffer := bufferSize.toNat_lt
  rw [LargeEnough, length_payloadBytes]
  by_cases hmod : payloadBits.toNat % 8 = 0
  · obtain ⟨hpayload, hendian⟩ := h.octets hmod
    have hzero : bs.payload = 0 ↔ payloadBits = 0 := by
      rw [← UInt32.toNat_inj, ← UInt32.toNat_inj, hpayload, UInt32.toNat_zero]
      omega
    rw [if_neg hendian, imp_iff_right hmod, payloadOctets]
    refine and_congr_right fun hlarge => ?_
    by_cases hfunc : bs.func = .lowPassY8
    · rw [imp_iff_right hfunc]
      by_cases hnone : payloadBits = 0
      · rw [if_pos ⟨hfunc, hzero.mpr hnone⟩]
        exact iff_of_false (fun hsome => hsome hnone) (Nat.not_le.mpr hbuffer)
      · rw [if_neg fun hlow => hnone (hzero.mp hlow.2), hpayload]
        exact iff_of_true hnone (by omega)
    · rw [if_neg fun hlow => hfunc hlow.1, hpayload]
      exact iff_of_true (fun hlow => absurd hlow hfunc) (by omega)
  · obtain ⟨hpayload, hendian⟩ := h.bits hmod
    rw [if_pos hendian]
    have hmul : (bufferSize * 8).toNat = bufferSize.toNat * 8 % 0x100000000 :=
      UInt32.toNat_mul bufferSize 8
    rw [hpayload, UInt32.lt_iff_toNat_lt, hmul] at hsize
    rw [hpayload]
    refine iff_of_true (fun hmod' => absurd hmod' hmod) ?_
    omega

structure Contract (payloadBits bufferSize : UInt32) (r : Result) : Prop where
  size : bufferSize.toNat * 8 < payloadBits.toNat → r.ok = false
  inBuffer : r.stored.length ≤ bufferSize.toNat
  unmodified : r.ok = false → r.stored = []

theorem contract_refused (payloadBits bufferSize thresh : UInt32) :
    Contract payloadBits bufferSize ⟨false, [], [], thresh⟩ :=
  ⟨fun _ => rfl, Nat.zero_le _, fun _ => rfl⟩

theorem contract_slicerFunction (h : PayloadOf bs payloadBits)
    (hsize : ¬bufferSize * 8 < bs.payload) (raw : Nat → UInt8) :
    Contract payloadBits bufferSize (slicerFunction bs raw) ↔
      (Carries bs raw → LargeEnough bs payloadBits bufferSize) := by
  by_cases hcarries : Carries bs raw
  · obtain ⟨hok, f, hstored⟩ := slicerFunction_carries hcarries
    rw [imp_iff_right hcarries, largeEnough_iff h hsize raw f]
    constructor
    · rintro ⟨hrefused, hinBuffer, -⟩
      rw [hstored] at hinBuffer
      refine ⟨Nat.not_lt.mp fun hsmall => ?_, hinBuffer⟩
      rw [hrefused hsmall] at hok
      cases hok
    · rintro ⟨hlarge, hlength⟩
      refine ⟨fun hsmall => absurd hsmall (Nat.not_lt.mpr hlarge), hstored ▸ hlength, ?_⟩
      intro hfalse
      rw [hok] at hfalse
      cases hfalse
  · obtain ⟨hok, hstored⟩ := slicerFunction_fails hcarries
    refine iff_of_true ⟨fun _ => hok, ?_, fun _ => hstored⟩ (fun h => absurd h hcarries)
    rw [hstored]
    exact Nat.zero_le _

/-- `bs->thresh` is what calls before have left. -/
theorem slice_contract_iff {phase : PhaseShift} {bs bs' : Vbi3BitSlicer} {p : Params}
    (h : vbi3BitSlicerSetParams phase bs p = some bs') (thresh : UInt32) (raw : Nat → UInt8)
    (bufferSize maxPoints : UInt32) :
    (Contract p.payloadBits bufferSize
        (vbi3BitSlicerSlice { bs' with thresh := thresh } raw bufferSize) ↔
      bufferSize * 8 < bs'.payload ∨ (Carries { bs' with thresh := thresh } raw →
        LargeEnough bs' p.payloadBits bufferSize)) ∧
    (Contract p.payloadBits bufferSize
        (vbi3BitSlicerSliceWithPoints { bs' with thresh := thresh } raw bufferSize maxPoints) ↔
      bufferSize * 8 < bs'.payload ∨ maxPoints < bs'.totalBits ∨
        (Carries { bs' with thresh := thresh } raw →
          LargeEnough bs' p.payloadBits bufferSize)) := by
  rw [vbi3BitSlicerSlice, vbi3BitSlicerSliceWithPoints]
  by_cases hsize : bufferSize * 8 < bs'.payload
  · rw [if_pos hsize, if_pos hsize]
    exact ⟨iff_of_true (contract_refused _ _ _) (Or.inl hsize),
      iff_of_true (contract_refused _ _ _) (Or.inl hsize)⟩
  · have hcontract := contract_slicerFunction (payloadOf_setParams h thresh) hsize raw
    rw [if_neg hsize, if_neg hsize, or_iff_right hsize, or_iff_right hsize]
    refine ⟨hcontract, ?_⟩
    by_cases hpoints : maxPoints < bs'.totalBits
    · rw [if_pos hpoints]
      exact iff_of_true (contract_refused _ _ _) (Or.inl hpoints)
    · rw [if_neg hpoints, or_iff_right hpoints]
      exact hcontract

/-- One bit of run-in and two bytes, with one sample for each bit. -/
def twoOctets : Params where
  sampleFormat := .yuv420
  samplingRate := 8000000
  sampleOffset := 0
  samplesPerLine := 100
  cri := 0
  criMask := 1
  criBits := 1
  criRate := 8000000
  criEnd := 50
  frc := 0
  frcBits := 0
  payloadBits := 16
  payloadRate := 8000000
  modulation := .nrzLsb

def twoOctetsSlicer : Vbi3BitSlicer where
  func := .y8
  cri := 0
  criMask := 1
  thresh := 105 <<< defThrFrac
  threshFrac := defThrFrac
  criSamples := 50
  criRate := 8000000
  oversamplingRate := 32000000
  phaseShift := 384
  step := 256
  frc := 0
  frcBits := 0
  totalBits := 17
  payload := 2
  endian := 1
  bytesPerSample := 1
  skip := 0
  greenMask := 0

/-- With a buffer of one byte both bytes are stored, for the size is compared with two bits. -/
theorem one_byte_exceeded :
    vbi3BitSlicerSetParams wholePhase twoOctetsSlicer twoOctets = some twoOctetsSlicer ∧
      (vbi3BitSlicerSlice twoOctetsSlicer (fun _ => 0) 1).stored = [0, 0] ∧
      ¬Contract twoOctets.payloadBits 1 (vbi3BitSlicerSlice twoOctetsSlicer (fun _ => 0) 1) := by
  refine ⟨by decide +kernel, by decide +kernel, ?_⟩
  intro hcontract
  have hrefused := hcontract.size (by decide)
  exact absurd hrefused (by decide +kernel)

theorem slice_contract_two_bytes :
    Contract twoOctets.payloadBits 2 (vbi3BitSlicerSlice twoOctetsSlicer (fun _ => 0) 2) :=
  (@slice_contract_iff wholePhase twoOctetsSlicer twoOctetsSlicer twoOctets (by decide +kernel)
    (105 <<< defThrFrac) (fun _ => 0) 2 17).1.mpr (Or.inr fun _ _ => by decide)

end BitSlicerOutput
