import Zvbi.BitSlicer

/-!
# The samples a bit slicer reads

The search for the clock run-in ends where the framing code and the payload would no longer
fit in the line, if their first bit was the next one behind the run-in. The phase shift and
the samples used besides the one at a sampling point are not taken into account. So it
depends on the position of the run-in whether all samples are in the line.
-/

namespace BitSlicerReads
open BitSlicer

/-- All bytes are in a line of `n` samples. -/
def Inside (bs : Vbi3BitSlicer) (n : Nat) (reads : List Nat) : Prop :=
  ∀ a ∈ reads, a < n * bs.bytesPerSample.toNat

variable {bs : Vbi3BitSlicer} {n offset : Nat}

theorem inside_append {reads reads' : List Nat} :
    Inside bs n (reads ++ reads') ↔ Inside bs n reads ∧ Inside bs n reads' :=
  List.forall_mem_append

theorem inside_flatMap {α : Type} {l : List α} {f : α → List Nat} :
    Inside bs n (l.flatMap f) ↔ ∀ x ∈ l, Inside bs n (f x) := by
  constructor
  · intro h x hx a ha
    exact h a (List.mem_flatMap.mpr ⟨x, hx, ha⟩)
  · intro h a ha
    obtain ⟨x, hx, ha⟩ := List.mem_flatMap.mp ha
    exact h x hx a ha

def width : SlicerFunction → Nat
  | .rgb16Le | .rgb16Be => 2
  | _ => 1

/-- The bit slicer begins with sample `offset` of the line. -/
structure StartsAt (bs : Vbi3BitSlicer) (offset : Nat) : Prop where
  component : ∃ c, bs.skip.toNat = offset * bs.bytesPerSample.toNat + c ∧
    c + width bs.func ≤ bs.bytesPerSample.toNat

theorem width_pos (func : SlicerFunction) : 1 ≤ width func := by
  cases func <;> decide

variable {a i : Nat} {s : Clock} {thresh bps skip : UInt32}

theorem greenReads_mem :
    a ∈ greenReads bs n ↔ address bs n ≤ a ∧ a < address bs n + width bs.func := by
  rw [greenReads]
  cases bs.func <;> simp only [width, List.mem_cons, List.not_mem_nil, or_false] <;> omega

theorem greenReads_inside (h : StartsAt bs offset) (n length : Nat) :
    Inside bs length (greenReads bs n) ↔ offset + n < length := by
  obtain ⟨c, hskip, hwidth⟩ := h.component
  have hpos := width_pos bs.func
  have haddress : address bs n = (offset + n) * bs.bytesPerSample.toNat + c := by
    rw [address, hskip, Nat.add_mul]
    omega
  constructor
  · intro hinside
    have hfirst := hinside (address bs n) (greenReads_mem.mpr ⟨Nat.le_refl _, by omega⟩)
    by_contra hlong
    have hmul := Nat.mul_le_mul_right bs.bytesPerSample.toNat (Nat.not_lt.mp hlong)
    omega
  · intro hlong a ha
    have hlast := (greenReads_mem.mp ha).2
    have hmul := Nat.mul_le_mul_right bs.bytesPerSample.toNat (Nat.succ_le_of_lt hlong)
    rw [Nat.succ_mul] at hmul
    omega

theorem lowPassReads_inside (h : StartsAt bs offset) (n length : Nat) :
    Inside bs length (lowPassReads bs n) ↔ offset + n + 15 < length := by
  rw [lowPassReads, inside_flatMap]
  constructor
  · intro hall
    have hlast := (greenReads_inside h (n + 15) length).mp (hall 15 (by decide))
    omega
  · intro hlong m hm
    rw [greenReads_inside h]
    have hlt : m < 16 := List.mem_range.mp hm
    omega

variable {f : Found} {raw : Nat → UInt8}

/-- The search goes on from its first sample, up to its last one. -/
theorem search_sample (h : (search bs raw i n thresh s).2 = some f) :
    n ≤ f.sample ∧ f.sample < n + i := by
  induction i generalizing n thresh s with
  | zero => cases h
  | succ i ih =>
    rw [search] at h
    dsimp only at h
    split at h
    · obtain rfl := Option.some.inj h
      exact ⟨Nat.le_refl n, Nat.lt_add_of_pos_right (Nat.succ_pos i)⟩
    · obtain ⟨hfirst, hlast⟩ := ih h
      exact ⟨by omega, by omega⟩

theorem lowPassSearch_sample {raw0 : UInt32}
    (h : (lowPassSearch bs raw i n raw0 thresh s).2 = some f) :
    n < f.sample ∧ f.sample ≤ n + i := by
  induction i generalizing n raw0 thresh s with
  | zero => cases h
  | succ i ih =>
    rw [lowPassSearch] at h
    dsimp only at h
    split at h
    · obtain rfl := Option.some.inj h
      exact ⟨Nat.lt_succ_self n, Nat.add_le_add_left (Nat.succ_pos i) n⟩
    · obtain ⟨hfirst, hlast⟩ := ih h
      exact ⟨by omega, by omega⟩

/-- The number of samples used behind the one at a sampling point. -/
def behind (bs : Vbi3BitSlicer) : Nat := if bs.func = .lowPassY8 then 15 else 1

/-- What the search reads is in the line: up to the end of the run-in, or, if there is none, up
to the end of the search. -/
def SearchFits (bs : Vbi3BitSlicer) (offset length n i : Nat) : Option Found → Prop
  | none => i = 0 ∨ offset + n + i + (if bs.func = .lowPassY8 then 15 else 0) < length
  | some f => offset + f.sample + behind bs < length

theorem search_inside (h : StartsAt bs offset) (hfunc : bs.func ≠ .lowPassY8) (raw : Nat → UInt8)
    (length i n : Nat) (thresh : UInt32) (s : Clock) :
    Inside bs length (search bs raw i n thresh s).1 ↔
      SearchFits bs offset length n i (search bs raw i n thresh s).2 := by
  have hbehind : behind bs = 1 := if_neg hfunc
  induction i generalizing n thresh s with
  | zero =>
    exact iff_of_true (fun a ha => absurd ha List.not_mem_nil) (Or.inl rfl)
  | succ i ih =>
    have hfirst := greenReads_inside h n length
    have hsecond := greenReads_inside h (n + 1) length
    rw [search]
    dsimp only
    split
    · rw [inside_append, hfirst, hsecond, SearchFits, hbehind]
      dsimp only
      omega
    · rw [inside_append, inside_append, hfirst, hsecond]
      refine (and_congr_right fun _ => ih (n + 1) _ _).trans ?_
      cases hrest : (search bs raw i (n + 1) _ _).2 with
      | none =>
        rw [SearchFits, SearchFits, if_neg hfunc]
        omega
      | some f =>
        have hsample := search_sample hrest
        rw [SearchFits, SearchFits, hbehind]
        omega

theorem lowPassSearch_inside (h : StartsAt bs offset) (hfunc : bs.func = .lowPassY8)
    (raw : Nat → UInt8) (length i n : Nat) (raw0 thresh : UInt32) (s : Clock) :
    Inside bs length (lowPassSearch bs raw i n raw0 thresh s).1 ↔
      SearchFits bs offset length n i (lowPassSearch bs raw i n raw0 thresh s).2 := by
  have hbehind : behind bs = 15 := if_pos hfunc
  induction i generalizing n raw0 thresh s with
  | zero =>
    exact iff_of_true (fun a ha => absurd ha List.not_mem_nil) (Or.inl rfl)
  | succ i ih =>
    have hfirst := greenReads_inside h n length
    have hlast := greenReads_inside h (n + 16) length
    rw [lowPassSearch]
    dsimp only [lpAvg, Nat.reduceShiftLeft]
    split
    · rw [inside_append, hfirst, hlast, SearchFits, hbehind]
      dsimp only
      omega
    · rw [inside_append, inside_append, hfirst, hlast]
      refine (and_congr_right fun _ => ih (n + 1) _ _ _).trans ?_
      cases hrest : (lowPassSearch bs raw i (n + 1) _ _ _).2 with
      | none =>
        rw [SearchFits, SearchFits, if_pos hfunc]
        omega
      | some f =>
        have hsample := lowPassSearch_sample hrest
        rw [SearchFits, SearchFits, hbehind]
        omega

theorem searchSamples_pos (hfunc : bs.func = .lowPassY8) : searchSamples bs ≠ 0 := by
  rw [searchSamples]
  split
  · decide
  · rename_i hsamples
    intro hzero
    exact hsamples ⟨hfunc, UInt32.toNat_inj.mp hzero⟩

/-- The run-in is searched in the line if the search ends there. The first sixteen samples the
low pass filter adds up are among those of the search. -/
theorem runIn_inside (h : StartsAt bs offset) (raw : Nat → UInt8) (length : Nat) :
    Inside bs length (runIn bs raw).1 ↔
      SearchFits bs offset length 0 (searchSamples bs) (runIn bs raw).2 := by
  rw [runIn]
  split
  · rename_i hfunc
    have hsearch := lowPassSearch_inside h hfunc raw length (searchSamples bs) 0
      (lowPassSum bs raw 0) bs.thresh ⟨0, 0xFFFFFFFF, false⟩
    dsimp only
    rw [inside_append, lowPassReads_inside h, hsearch]
    refine and_iff_right_of_imp fun hfits => ?_
    cases hfound : (lowPassSearch bs raw (searchSamples bs) 0 (lowPassSum bs raw 0) bs.thresh
        ⟨0, 0xFFFFFFFF, false⟩).2 with
    | none =>
      rw [hfound, SearchFits, if_pos hfunc] at hfits
      have hpos := searchSamples_pos hfunc
      omega
    | some f =>
      rw [hfound, SearchFits, behind, if_pos hfunc] at hfits
      omega
  · rename_i hfunc
    exact search_inside h hfunc raw length (searchSamples bs) 0 bs.thresh ⟨0, 0, false⟩

theorem bitReads_inside (h : StartsAt bs offset) (f : Found) (k length : Nat) :
    Inside bs length (bitReads bs f k) ↔
      offset + bitSample bs f k + behind bs < length := by
  rw [bitReads, behind]
  split
  · rw [lowPassReads_inside h]
  · rw [inside_append, greenReads_inside h, greenReads_inside h]
    omega

def sampledBits (bs : Vbi3BitSlicer) (raw : Nat → UInt8) (f : Found) : Nat :=
  bs.frcBits.toNat + if frcWord bs raw f = bs.frc then payloadSamples bs else 0

def Fits (bs : Vbi3BitSlicer) (raw : Nat → UInt8) (offset length : Nat) : Prop :=
  SearchFits bs offset length 0 (searchSamples bs) (runIn bs raw).2 ∧
    ∀ f ∈ (runIn bs raw).2, ∀ k < sampledBits bs raw f,
      offset + bitSample bs f k + behind bs < length

theorem forall_lt_add {b : Nat} {P : Nat → Prop} :
    (∀ k < a + b, P k) ↔ (∀ k < a, P k) ∧ ∀ k < b, P (a + k) := by
  constructor
  · intro h
    exact ⟨fun k hk => h k (by omega), fun k hk => h (a + k) (by omega)⟩
  · rintro ⟨hfirst, hlast⟩ k hk
    by_cases hka : k < a
    · exact hfirst k hka
    · obtain ⟨m, rfl⟩ := Nat.exists_eq_add_of_le (Nat.not_lt.mp hka)
      exact hlast m (by omega)

theorem slicerFunction_inside (h : StartsAt bs offset) (raw : Nat → UInt8) (length : Nat) :
    Inside bs length (slicerFunction bs raw).reads ↔ Fits bs raw offset length := by
  rw [Fits, ← runIn_inside h, slicerFunction]
  dsimp only
  cases hfound : (runIn bs raw).2 with
  | none =>
    exact (and_iff_left fun f hf => absurd hf (by simp)).symm
  | some f =>
    have hbits : ∀ n j, Inside bs length ((List.range n).flatMap fun k => bitReads bs f (j + k)) ↔
        ∀ k < n, offset + bitSample bs f (j + k) + behind bs < length := by
      intro n j
      simp only [inside_flatMap, List.mem_range, bitReads_inside h]
    have hfrc := hbits bs.frcBits.toNat 0
    simp only [Nat.zero_add] at hfrc
    simp only [Option.mem_def, Option.some.injEq, forall_eq', sampledBits]
    by_cases hword : frcWord bs raw f = bs.frc
    · rw [if_neg (not_not.mpr hword), if_pos hword, inside_append, inside_append, hfrc, hbits,
        forall_lt_add, and_assoc]
    · rw [if_pos hword, if_neg hword, inside_append, hfrc, Nat.add_zero]

def lastStart (bs : Vbi3BitSlicer) : Nat :=
  if bs.func = .lowPassY8 then searchSamples bs else searchSamples bs - 1

theorem runIn_sample (h : (runIn bs raw).2 = some f) : f.sample ≤ lastStart bs := by
  rw [runIn] at h
  rw [lastStart]
  split at h
  · rename_i hfunc
    have hlast := (lowPassSearch_sample h).2
    rw [if_pos hfunc]
    omega
  · rename_i hfunc
    have hlast := (search_sample h).2
    rw [if_neg hfunc]
    omega

/-- All samples are in the line wherever the run-in is if those counted from the last possible
start are. -/
theorem fits_of_room {length : Nat}
    (hstart : offset + lastStart bs + behind bs < length)
    (hbits : ∀ k < bs.frcBits.toNat + payloadSamples bs,
      offset + lastStart bs + (bitPosition bs k >>> 8).toNat + behind bs < length)
    (raw : Nat → UInt8) : Fits bs raw offset length := by
  constructor
  · cases hfound : (runIn bs raw).2 with
    | none =>
      rw [lastStart, behind] at hstart
      rw [SearchFits]
      split at hstart <;> rename_i hfunc
      · rw [if_pos hfunc]
        omega
      · rw [if_neg hfunc]
        omega
    | some f =>
      have hsample := runIn_sample hfound
      rw [SearchFits]
      omega
  · intro f hfound k hk
    have hsample := runIn_sample hfound
    have hall := hbits k (by
      rw [sampledBits] at hk
      split at hk <;> omega)
    rw [bitSample]
    omega

theorem width_layout {sampleFormat : VbiPixfmt} {func : SlicerFunction}
    (h : layout sampleFormat = some (func, bps, skip)) :
    skip.toNat + width func ≤ bps.toNat ∧ bps.toNat ≤ 4 := by
  cases sampleFormat <;> cases h <;> decide

/-- The first sample is in the line, which is short enough that its bytes can be counted. -/
theorem skip_toNat {offset length : UInt32} (hlength : ¬32767 < length) (hoffset : ¬length < offset)
    (hbps : bps.toNat ≤ 4) (hskip : skip.toNat < bps.toNat) :
    (offset * bps + skip).toNat = offset.toNat * bps.toNat + skip.toNat := by
  have hoff : offset.toNat ≤ 32767 :=
    Nat.le_trans (UInt32.le_iff_toNat_le.mp (UInt32.not_lt.mp hoffset))
      (UInt32.le_iff_toNat_le.mp (UInt32.not_lt.mp hlength))
  have hmul := Nat.mul_le_mul hoff hbps
  rw [UInt32.toNat_add, UInt32.toNat_mul]
  omega

theorem startsAt_setParams {phase : PhaseShift} {bs' : Vbi3BitSlicer} {p : Params}
    (h : vbi3BitSlicerSetParams phase bs p = some bs') (thresh : UInt32) :
    StartsAt { bs' with thresh := thresh } p.sampleOffset.toNat := by
  have hset := accepted h
  obtain ⟨func, bps, skip, hlayout, hfunc, hsize, hskip⟩ := hset.component
  obtain ⟨hwidth, hbps⟩ := width_layout hlayout
  have hpos := width_pos func
  refine ⟨skip.toNat, ?_, ?_⟩
  · dsimp only
    rw [hskip, hsize]
    exact skip_toNat hset.short hset.inside hbps (by omega)
  · dsimp only
    rw [hsize]
    rcases hfunc with hfunc | hfunc
    · rw [hfunc]
      exact hwidth
    · rw [hfunc]
      exact Nat.le_trans (Nat.add_le_add_left hpos _) hwidth

/-- `bs->thresh` is what calls before have left. -/
theorem reads_inLine_iff {phase : PhaseShift} {bs bs' : Vbi3BitSlicer} {p : Params}
    (h : vbi3BitSlicerSetParams phase bs p = some bs') (thresh : UInt32) (raw : Nat → UInt8)
    (bufferSize : UInt32) :
    (∀ a ∈ (vbi3BitSlicerSlice { bs' with thresh := thresh } raw bufferSize).reads,
        a < p.samplesPerLine.toNat * bs'.bytesPerSample.toNat) ↔
      bufferSize * 8 < bs'.payload ∨
        Fits { bs' with thresh := thresh } raw p.sampleOffset.toNat p.samplesPerLine.toNat := by
  rw [vbi3BitSlicerSlice]
  split
  · rename_i hsize
    exact iff_of_true (fun a ha => absurd ha List.not_mem_nil) (Or.inl hsize)
  · rename_i hsize
    rw [or_iff_right hsize]
    exact slicerFunction_inside (startsAt_setParams h thresh) raw p.samplesPerLine.toNat

/-- One bit of run-in and one byte, with one sample for each bit. -/
def shortParams (samplesPerLine : UInt32) : Params where
  sampleFormat := .yuv420
  samplingRate := 8000000
  sampleOffset := 0
  samplesPerLine := samplesPerLine
  cri := 0
  criMask := 1
  criBits := 1
  criRate := 8000000
  criEnd := 1
  frc := 0
  frcBits := 0
  payloadBits := 8
  payloadRate := 8000000
  modulation := .nrzLsb

def shortSlicer : Vbi3BitSlicer where
  func := .y8
  cri := 0
  criMask := 1
  thresh := 105 <<< defThrFrac
  threshFrac := defThrFrac
  criSamples := 1
  criRate := 8000000
  oversamplingRate := 32000000
  phaseShift := 384
  step := 256
  frc := 0
  frcBits := 0
  totalBits := 9
  payload := 1
  endian := 1
  bytesPerSample := 1
  skip := 0
  greenMask := 0

/-- Nine samples are enough for `vbi3_bit_slicer_set_params()`. The run-in is found at the first
one and the last bit is sampled between the ninth one and the next. -/
theorem line_exceeded :
    vbi3BitSlicerSetParams wholePhase shortSlicer (shortParams 9) = some shortSlicer ∧
      9 ∈ (vbi3BitSlicerSlice shortSlicer (fun _ => 0) 1).reads := by
  decide +kernel

/-- Ten samples are enough. -/
theorem reads_inLine_ten :
    vbi3BitSlicerSetParams wholePhase shortSlicer (shortParams 10) = some shortSlicer ∧
      ∀ a ∈ (vbi3BitSlicerSlice shortSlicer (fun _ => 0) 1).reads, a < 10 := by
  have hset : vbi3BitSlicerSetParams wholePhase shortSlicer (shortParams 10) =
      some shortSlicer := by decide +kernel
  refine ⟨hset, ?_⟩
  exact (@reads_inLine_iff wholePhase shortSlicer shortSlicer (shortParams 10) hset
    (105 <<< defThrFrac) (fun _ => 0) 1).mpr
    (Or.inr (fits_of_room (by decide) (by decide +kernel) _))

end BitSlicerReads
