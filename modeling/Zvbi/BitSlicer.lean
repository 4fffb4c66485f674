import Mathlib.Data.List.Basic
import Mathlib.Tactic.Common

/-!
# The bit slicer

A bit slicer looks in a line of raw samples for the clock run-in of a transmission. The bits
of the framing code and of the payload are sampled at fixed distances from its end. There is
one function for each layout of the samples, which interpolates between two samples, and one
which adds up sixteen of them where the sampling rate is high. The sampling points they can
report are left out.

Positions of samples count from the first sample the bit slicer looks at. All functions
return the bytes of the line they have read.
-/

namespace BitSlicer

/-- `vbi_pixfmt`. The synonyms are left out. -/
inductive VbiPixfmt
  | yuv420 | yuyv | yvyu | uyvy | vyuy | pal8
  | rgba32Le | rgba32Be | bgra32Le | bgra32Be
  | rgb24 | bgr24
  | rgb16Le | rgb16Be | bgr16Le | bgr16Be
  | rgba15Le | rgba15Be | bgra15Le | bgra15Be
  | argb15Le | argb15Be | abgr15Le | abgr15Be
  deriving DecidableEq

inductive Vbi3Modulation
  | nrzLsb | nrzMsb | biphaseLsb | biphaseMsb
  deriving DecidableEq

/-- The functions `bs->func` can point to. -/
inductive SlicerFunction
  | y8 | yuyv | rgb24Le | rgba24Le | rgb16Le | rgb16Be | lowPassY8
  deriving DecidableEq

/-- `vbi3_bit_slicer`, less what only messages use. -/
structure Vbi3BitSlicer where
  func : SlicerFunction
  cri : UInt32
  criMask : UInt32
  thresh : UInt32
  threshFrac : UInt32
  criSamples : UInt32
  criRate : UInt32
  oversamplingRate : UInt32
  phaseShift : UInt32
  step : UInt32
  frc : UInt32
  frcBits : UInt32
  totalBits : UInt32
  payload : UInt32
  endian : UInt32
  bytesPerSample : UInt32
  skip : UInt32
  greenMask : UInt32
  deriving DecidableEq

def defThrFrac : UInt32 := 9

def lpAvg : Nat := 4

def oversampling : Nat := 4

/-- The parameters of `vbi3_bit_slicer_set_params()`. -/
structure Params where
  sampleFormat : VbiPixfmt
  samplingRate : UInt32
  sampleOffset : UInt32
  samplesPerLine : UInt32
  cri : UInt32
  criMask : UInt32
  criBits : UInt32
  criRate : UInt32
  criEnd : UInt32
  frc : UInt32
  frcBits : UInt32
  payloadBits : UInt32
  payloadRate : UInt32
  modulation : Vbi3Modulation

/-- How samples are stored: the function, the bytes of a sample, and the first byte used of
it. -/
def layout : VbiPixfmt → Option (SlicerFunction × UInt32 × UInt32)
  | .yuv420 => some (.y8, 1, 0)
  | .yuyv | .yvyu => some (.yuyv, 2, 0)
  | .uyvy | .vyuy => some (.yuyv, 2, 1)
  | .rgba32Le | .bgra32Le => some (.rgba24Le, 4, 1)
  | .rgba32Be | .bgra32Be => some (.rgba24Le, 4, 2)
  | .rgb24 | .bgr24 => some (.rgb24Le, 3, 1)
  | .rgb16Le | .bgr16Le | .rgba15Le | .bgra15Le | .argb15Le | .abgr15Le => some (.rgb16Le, 2, 0)
  | .rgb16Be | .bgr16Be | .rgba15Be | .bgra15Be | .argb15Be | .abgr15Be => some (.rgb16Be, 2, 0)
  | .pal8 => none

/-- The mask for green, the first threshold and the number of its fractional bits, of formats
with two bytes for the three colors. -/
def greenFormat : VbiPixfmt → Option (UInt32 × UInt32 × UInt32)
  | .rgb16Le | .bgr16Le | .rgb16Be | .bgr16Be =>
    some (0x07E0, (105 : UInt32) <<< (5 - 2 + 12), 12)
  | .rgba15Le | .bgra15Le | .rgba15Be | .bgra15Be =>
    some (0x03E0, (105 : UInt32) <<< (5 - 3 + 11), 11)
  | .argb15Le | .abgr15Le | .argb15Be | .abgr15Be =>
    some (0x07C0, (105 : UInt32) <<< (6 - 3 + 12), 12)
  | _ => none

/-- The time of `bits` bits in units of `1 / unit` samples. -/
def bitTime (unit samplingRate bits rate : UInt32) : UInt32 :=
  UInt32.ofNat (unit.toNat * samplingRate.toNat * bits.toNat / rate.toNat)

def bitMask (bits : UInt32) : UInt32 := if bits = 32 then 0xFFFFFFFF else (1 <<< bits) - 1

/-- The computation of the phase shift, in floating point numbers, from the two rates and the
payload bit distance. -/
abbrev PhaseShift := UInt32 → UInt32 → UInt32 → Bool → UInt32

/-- The phase shift where nothing is to be rounded. -/
def wholePhase : PhaseShift := fun samplingRate criRate step biphase =>
  samplingRate * 256 / criRate / 2 + step / (if biphase then 4 else 2) + 128

/-- `vbi3_bit_slicer_set_params()`. There is no result if it fails or if one of the rates
is zero, which is a division by zero or leaves nothing to divide by. -/
def vbi3BitSlicerSetParams (phase : PhaseShift) (bs : Vbi3BitSlicer) (p : Params) :
    Option Vbi3BitSlicer :=
  if 32 < p.criBits ∨ 32 < p.frcBits ∨ 32767 < p.payloadBits ∨ 32767 < p.samplesPerLine ∨
      p.criRate = 0 ∨ p.payloadRate = 0 then
    none
  else if p.samplingRate < p.criRate ∨ p.samplingRate < p.payloadRate then
    none
  else
    let minSamplesPerBit := p.samplingRate / max p.criRate p.payloadRate
    match layout p.sampleFormat with
    | none => none
    | some (func, bytesPerSample, skip) =>
      let lowPass : Bool :=
        greenFormat p.sampleFormat = none ∧ (3 : UInt32) <<< 3 < minSamplesPerBit
      let criSamples := bitTime 1 p.samplingRate p.criBits p.criRate
      let dataBits := p.payloadBits + p.frcBits
      let dataSamples := bitTime 1 p.samplingRate dataBits p.payloadRate
      if p.samplesPerLine < p.sampleOffset ∨
          p.samplesPerLine - p.sampleOffset < criSamples + dataSamples then
        none
      else
        let criEnd := min p.criEnd (p.samplesPerLine - dataSamples)
        let step := bitTime 256 p.samplingRate 1 p.payloadRate
        let octets : Bool := p.payloadBits &&& 7 = 0
        let msb : Bool := p.modulation = .nrzMsb ∨ p.modulation = .biphaseMsb
        some {
          func := if lowPass then .lowPassY8 else func
          cri := p.cri &&& (p.criMask &&& bitMask p.criBits)
          criMask := p.criMask &&& bitMask p.criBits
          thresh := match greenFormat p.sampleFormat with
            | some (_, thresh, _) => thresh
            | none => if lowPass then 105 <<< defThrFrac <<< 2 else 105 <<< defThrFrac
          threshFrac := match greenFormat p.sampleFormat with
            | some (_, _, frac) => frac
            | none => if lowPass then defThrFrac + 2 else defThrFrac
          criSamples := criEnd - p.sampleOffset
          criRate := p.criRate
          oversamplingRate := p.samplingRate * if lowPass then 1 else 4
          phaseShift := phase p.samplingRate p.criRate step
            (p.modulation = .biphaseLsb ∨ p.modulation = .biphaseMsb)
          step := step
          frc := p.frc &&& bitMask p.frcBits
          frcBits := p.frcBits
          totalBits := p.criBits + dataBits
          payload := if octets then p.payloadBits >>> 3 else p.payloadBits
          endian := (if octets then 1 else 3) - if msb then 1 else 0
          bytesPerSample := bytesPerSample
          skip := p.sampleOffset * bytesPerSample + skip
          greenMask := match greenFormat p.sampleFormat with
            | some (mask, _, _) => mask
            | none => bs.greenMask }

structure Accepted (p : Params) (bs : Vbi3BitSlicer) : Prop where
  short : ¬32767 < p.samplesPerLine
  inside : ¬p.samplesPerLine < p.sampleOffset
  component : ∃ func bytesPerSample skip,
    layout p.sampleFormat = some (func, bytesPerSample, skip) ∧
      (bs.func = func ∨ bs.func = .lowPassY8) ∧ bs.bytesPerSample = bytesPerSample ∧
      bs.skip = p.sampleOffset * bytesPerSample + skip
  octets : p.payloadBits &&& 7 = 0 →
    bs.payload = p.payloadBits >>> 3 ∧ (bs.endian = 0 ∨ bs.endian = 1)
  bits : p.payloadBits &&& 7 ≠ 0 →
    bs.payload = p.payloadBits ∧ (bs.endian = 2 ∨ bs.endian = 3)

theorem accepted {phase : PhaseShift} {bs bs' : Vbi3BitSlicer} {p : Params}
    (h : vbi3BitSlicerSetParams phase bs p = some bs') : Accepted p bs' := by
  rw [vbi3BitSlicerSetParams] at h
  split at h
  · cases h
  rename_i hassert
  split at h
  · cases h
  dsimp only at h
  split at h
  · cases h
  rename_i func bps skip hlayout
  split at h
  · cases h
  rename_i hroom
  obtain rfl := Option.some.inj h
  refine ⟨fun hlength => ?_, fun hoffset => hroom (Or.inl hoffset), ?_, fun hmod => ?_,
    fun hmod => ?_⟩
  · exact hassert (Or.inr (Or.inr (Or.inr (Or.inl hlength))))
  · refine ⟨func, bps, skip, hlayout, ?_, rfl, rfl⟩
    dsimp only
    split
    · exact Or.inr rfl
    · exact Or.inl rfl
  · dsimp only
    rw [decide_eq_true hmod]
    refine ⟨rfl, ?_⟩
    cases decide (p.modulation = .nrzMsb ∨ p.modulation = .biphaseMsb) <;> decide
  · dsimp only
    rw [decide_eq_false hmod]
    refine ⟨rfl, ?_⟩
    cases decide (p.modulation = .nrzMsb ∨ p.modulation = .biphaseMsb) <;> decide

variable (bs : Vbi3BitSlicer) (raw : Nat → UInt8)

def address (n : Nat) : Nat := bs.skip.toNat + n * bs.bytesPerSample.toNat

def greenReads (n : Nat) : List Nat :=
  match bs.func with
  | .rgb16Le | .rgb16Be => [address bs n, address bs n + 1]
  | _ => [address bs n]

def green (n : Nat) : UInt32 :=
  let r := address bs n
  match bs.func with
  | .rgb16Le => ((raw r).toUInt32 + (raw (r + 1)).toUInt32 * 256) &&& bs.greenMask
  | .rgb16Be => ((raw (r + 1)).toUInt32 + (raw r).toUInt32 * 256) &&& bs.greenMask
  | _ => (raw r).toUInt32

def lowPassSum (n : Nat) : UInt32 :=
  (List.range (1 <<< lpAvg)).foldl (fun sum m => sum + green bs raw (n + m)) 0

def lowPassReads (n : Nat) : List Nat :=
  (List.range (1 <<< lpAvg)).flatMap fun m => greenReads bs (n + m)

/-- `ABS ((int) x)`. -/
def absInt (x : UInt32) : UInt32 := if x < 0x80000000 then x else 0 - x

/-- The state of the clock: its phase `cl`, the last bits, and the level before. -/
structure Clock where
  cl : UInt32
  c : UInt32
  b1 : Bool

def bit (b : Bool) : UInt32 := if b then 1 else 0

/-- The clock is synchronized at each change of the level. The result tells whether the
run-in is complete. -/
def clock (s : Clock) (b : Bool) : Clock × Bool :=
  if b ≠ s.b1 then
    (⟨bs.oversamplingRate >>> 1, s.c, b⟩, false)
  else
    let cl := s.cl + bs.criRate
    if bs.oversamplingRate ≤ cl then
      let c := s.c * 2 + bit b
      (⟨cl - bs.oversamplingRate, c, b⟩, c &&& bs.criMask = bs.cri)
    else
      (⟨cl, s.c, b⟩, false)

/-- `CRI()`, repeated for one sample. `t` is the interpolated level. -/
def criLoop (tr raw1 : UInt32) : Nat → UInt32 → Clock → Clock × Bool
  | 0, _, s => (s, false)
  | j + 1, t, s =>
    let tavg := (t + UInt32.ofNat (oversampling / 2)) / UInt32.ofNat oversampling
    let r := clock bs s (tr ≤ tavg)
    if r.2 then r else criLoop tr raw1 j (t + raw1) r.1

/-- Where the payload is to be looked for: the sample from which its bits are counted, and
the thresholds. -/
structure Found where
  sample : Nat
  tr : UInt32
  thresh : UInt32
  deriving DecidableEq

/-- The loop of `CORE()` over the samples, with the bytes read. -/
def search : Nat → Nat → UInt32 → Clock → List Nat × Option Found
  | 0, _, _, _ => ([], none)
  | i + 1, n, thresh, s =>
    let tr := thresh >>> bs.threshFrac
    let raw0 := green bs raw n
    let raw1 := green bs raw (n + 1) - raw0
    let thresh := thresh + (raw0 - tr) * absInt raw1
    let reads := greenReads bs n ++ greenReads bs (n + 1)
    let r := criLoop bs tr raw1 oversampling (raw0 * UInt32.ofNat oversampling) s
    if r.2 then
      (reads, some ⟨n, tr, thresh⟩)
    else
      let rest := search i (n + 1) thresh r.1
      (reads ++ rest.1, rest.2)

/-- The loop of `low_pass_bit_slicer_Y8()` over the samples. -/
def lowPassSearch : Nat → Nat → UInt32 → UInt32 → Clock → List Nat × Option Found
  | 0, _, _, _, _ => ([], none)
  | i + 1, n, raw0, thresh, s =>
    let tr := thresh >>> bs.threshFrac
    let raw0sum := raw0 + green bs raw (n + (1 <<< lpAvg)) - green bs raw n
    let thresh := thresh + (raw0 - tr) * absInt (raw0sum - raw0)
    let reads := greenReads bs (n + (1 <<< lpAvg)) ++ greenReads bs n
    let r := clock bs s (tr ≤ raw0)
    if r.2 then
      (reads, some ⟨n + 1, tr, thresh⟩)
    else
      let rest := lowPassSearch i (n + 1) raw0sum thresh r.1
      (reads ++ rest.1, rest.2)

/-- The number of times the loop is repeated at most. The low pass filter counts down before
it compares with zero. -/
def searchSamples : Nat :=
  if bs.func = .lowPassY8 ∧ bs.criSamples = 0 then 0x100000000 else bs.criSamples.toNat

def runIn : List Nat × Option Found :=
  if bs.func = .lowPassY8 then
    let r := lowPassSearch bs raw (searchSamples bs) 0 (lowPassSum bs raw 0) bs.thresh
      ⟨0, 0xFFFFFFFF, false⟩
    (lowPassReads bs 0 ++ r.1, r.2)
  else
    search bs raw (searchSamples bs) 0 bs.thresh ⟨0, 0, false⟩

/-- `i` after `k` bits, the position of the next one in 1/256 samples. -/
def bitPosition (k : Nat) : UInt32 := bs.phaseShift + UInt32.ofNat k * bs.step

def bitSample (f : Found) (k : Nat) : Nat := f.sample + (bitPosition bs k >>> 8).toNat

/-- `SAMPLE()` and `LP_SAMPLE()`. -/
def sampleBit (f : Found) (k : Nat) : Bool :=
  let n := bitSample bs f k
  if bs.func = .lowPassY8 then
    f.tr ≤ lowPassSum bs raw n
  else
    let raw0 := green bs raw n
    let raw1 := green bs raw (n + 1)
    f.tr * 256 ≤ (raw1 - raw0) * (bitPosition bs k &&& 255) + raw0 * 256

def bitReads (f : Found) (k : Nat) : List Nat :=
  let n := bitSample bs f k
  if bs.func = .lowPassY8 then lowPassReads bs n else greenReads bs n ++ greenReads bs (n + 1)

def lsbFirst (c : UInt32) (b : Bool) : UInt32 := (c >>> 1) + (bit b <<< 7)

def msbFirst (c : UInt32) (b : Bool) : UInt32 := c * 2 + bit b

def frcWord (f : Found) : UInt32 :=
  (List.range bs.frcBits.toNat).foldl (fun c k => msbFirst c (sampleBit bs raw f k)) 0

def storeBits (next : UInt32 → Bool → UInt32) (b : Nat → Bool) :
    Nat → Nat → UInt32 → List UInt8 × UInt32
  | 0, _, c => ([], c)
  | n + 1, j, c =>
    let c := next c (b j)
    let r := storeBits next b n (j + 1) c
    (if j % 8 = 7 then c.toUInt8 :: r.1 else r.1, r.2)

def storeOctets (next : UInt32 → Nat → Bool → UInt32) (b : Nat → Bool) :
    Nat → Nat → UInt32 → List UInt8
  | 0, _, _ => []
  | n + 1, j, c =>
    let c := (List.range 8).foldl (fun c k => next c k (b (j + k))) c
    c.toUInt8 :: storeOctets next b n (j + 8) c

def payloadOctets : Nat :=
  if bs.func = .lowPassY8 ∧ bs.payload = 0 then 0x100000000 else bs.payload.toNat

def payloadSamples : Nat := if 2 ≤ bs.endian then bs.payload.toNat else 8 * payloadOctets bs

def payloadBytes (f : Found) : List UInt8 :=
  let lowPass : Bool := bs.func = .lowPassY8
  let b := fun k => sampleBit bs raw f (bs.frcBits.toNat + k)
  let c := if lowPass then 0 else bs.frc
  if bs.endian = 3 then
    let r := storeBits lsbFirst b bs.payload.toNat 0 c
    r.1 ++ [(r.2 >>> ((8 - bs.payload) &&& 7)).toUInt8]
  else if bs.endian = 2 then
    let r := storeBits msbFirst b bs.payload.toNat 0 c
    r.1 ++ [(r.2 &&& ((1 <<< (bs.payload &&& 7)) - 1)).toUInt8]
  else if bs.endian = 1 then
    storeOctets (fun c k b => if lowPass then lsbFirst c b
      else (if k = 0 then 0 else c) + (bit b <<< UInt32.ofNat k)) b (payloadOctets bs) 0 c
  else
    storeOctets (fun c _ b => msbFirst c b) b (payloadOctets bs) 0 c

/-- The result of slicing a line: the return value, the bytes stored in the buffer, the bytes
read of the line, and the new threshold. -/
structure Result where
  ok : Bool
  stored : List UInt8
  reads : List Nat
  thresh : UInt32

/-- `bs->func`. -/
def slicerFunction : Result :=
  let r := runIn bs raw
  match r.2 with
  | none => ⟨false, [], r.1, bs.thresh⟩
  | some f =>
    let frcReads := (List.range bs.frcBits.toNat).flatMap (bitReads bs f)
    if frcWord bs raw f ≠ bs.frc then
      ⟨false, [], r.1 ++ frcReads, f.thresh⟩
    else
      let payloadReads := (List.range (payloadSamples bs)).flatMap fun k =>
        bitReads bs f (bs.frcBits.toNat + k)
      ⟨true, payloadBytes bs raw f, r.1 ++ frcReads ++ payloadReads, f.thresh⟩

/-- `vbi3_bit_slicer_slice()`. -/
def vbi3BitSlicerSlice (bufferSize : UInt32) : Result :=
  if bufferSize * 8 < bs.payload then ⟨false, [], [], bs.thresh⟩ else slicerFunction bs raw

/-- `vbi3_bit_slicer_slice_with_points()`, less the points. -/
def vbi3BitSlicerSliceWithPoints (bufferSize maxPoints : UInt32) : Result :=
  if bufferSize * 8 < bs.payload then ⟨false, [], [], bs.thresh⟩
  else if maxPoints < bs.totalBits then ⟨false, [], [], bs.thresh⟩
  else slicerFunction bs raw

end BitSlicer
