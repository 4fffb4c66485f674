import Zvbi.DvbMultiplex

/-!
# The segments of a raw line

Each call of `vbi_dvb_multiplex_raw()` codes as many samples of a line as there is room
for. The position of a segment and its flags follow from the number of samples left, so
the segments of a line join up across calls.
-/

namespace DvbRawSegments
open DvbMuxUnits DvbMux DvbMultiplex
open DvbFrame (dataUnits)

structure Segment where
  firstSegmentFlag : Bool
  lastSegmentFlag : Bool
  lofp : Nat
  firstPixelPosition : Nat
  nPixels : Nat
  samples : List UInt8

def segmentOf (data : List UInt8) : Segment where
  firstSegmentFlag := (data.getD 0 0).toNat.testBit 7
  lastSegmentFlag := (data.getD 0 0).toNat.testBit 6
  lofp := (data.getD 0 0).toNat % 64
  firstPixelPosition := (data.getD 1 0).toNat * 256 + (data.getD 2 0).toNat
  nPixels := (data.getD 3 0).toNat
  samples := (data.drop 4).take (data.getD 3 0).toNat

def segments (packet : List UInt8) : List Segment :=
  ((dataUnits packet).filter fun u => u.1 = 0xc6).map fun u => segmentOf u.2

structure LineCode where
  firstPixelPosition : Nat
  nPixelsTotal : Nat
  lofp : Nat

inductive Cuts (l : LineCode) : List UInt8 → List Segment → List UInt8 → Prop
  | stop (r : List UInt8) : Cuts l r [] r
  | segment {r left : List UInt8} {n : Nat} {us : List Segment} (pos : 0 < n)
      (le : n ≤ r.length) (rest : Cuts l (r.drop n) us left) :
      Cuts l r (⟨r.length = l.nPixelsTotal, r.length = n, l.lofp,
        l.firstPixelPosition + (l.nPixelsTotal - r.length), n, r.take n⟩ :: us) left

variable {l : LineCode} {r left : List UInt8} {us : List Segment} {pLeft : Nat}

variable {t : List UInt8} {vs : List Segment} {c : RawPar} {n : Nat} {b : Buffer} {stuffing : Bool}

theorem Cuts.trans {s : List UInt8} (h : Cuts l r us s) (k : Cuts l s vs t) :
    Cuts l r (us ++ vs) t := by
  induction h with
  | stop r => exact k
  | segment pos le rest ih => exact .segment pos le (ih k)

theorem Cuts.split (h : Cuts l r (us ++ vs) t) : ∃ s, Cuts l r us s ∧ Cuts l s vs t := by
  induction us generalizing r with
  | nil => exact ⟨r, .stop r, h⟩
  | cons u us ih =>
    cases h with
    | segment pos le rest =>
      obtain ⟨s, hbefore, hbehind⟩ := ih rest
      exact ⟨s, .segment pos le hbefore, hbehind⟩

theorem Cuts.samples (h : Cuts l r us left) : us.flatMap Segment.samples ++ left = r := by
  induction h with
  | stop r => rfl
  | @segment r left n us pos le rest ih =>
    rw [List.flatMap_cons, List.append_assoc, ih]
    exact List.take_append_drop n r

theorem Cuts.nil (h : Cuts l [] us left) : us = [] ∧ left = [] := by
  cases h with
  | stop => exact ⟨rfl, rfl⟩
  | segment pos le rest =>
    rw [List.length_nil] at le
    omega

structure Fits (l : LineCode) (samples : Nat) (start : Bool) (done : Bool) (s : Segment) :
    Prop where
  firstPixelPosition : s.firstPixelPosition = l.firstPixelPosition + samples
  firstSegmentFlag : s.firstSegmentFlag = start
  lastSegmentFlag : s.lastSegmentFlag = done
  lofp : s.lofp = l.lofp
  nPixels : s.samples.length = s.nPixels ∧ 0 < s.nPixels

theorem Cuts.fits {s : Segment} (h : Cuts l r (us ++ s :: vs) left)
    (hr : r.length ≤ l.nPixelsTotal) :
    Fits l (l.nPixelsTotal - r.length + (us.flatMap Segment.samples).length)
      (us.isEmpty && r.length = l.nPixelsTotal) (vs.isEmpty && left.isEmpty) s := by
  obtain ⟨mid, hbefore, hbehind⟩ := h.split
  have hsamples := congrArg List.length hbefore.samples
  rw [List.length_append] at hsamples
  cases hbehind with
  | @segment _ _ n _ pos le rest =>
  refine ⟨?_, ?_, ?_, rfl, List.length_take_of_le le, pos⟩
  · dsimp only
    omega
  · -- samples before the segment are missing
    cases hbefore with
    | stop => rfl
    | @segment _ _ n' _ pos' le' rest' =>
      have hcut := congrArg List.length rest'.samples
      rw [List.length_append, List.length_drop] at hcut
      exact decide_eq_false (by omega)
  · -- samples behind the segment are left
    by_cases hall : mid.length = n
    · rw [List.drop_of_length_le (Nat.le_of_eq hall)] at rest
      obtain ⟨rfl, rfl⟩ := rest.nil
      exact decide_eq_true hall
    · have hrest := congrArg List.length rest.samples
      rw [List.length_append, List.length_drop] at hrest
      have hmore : ¬ (vs = [] ∧ left = []) := by
        rintro ⟨rfl, rfl⟩
        simp only [List.flatMap_nil, List.length_nil] at hrest
        omega
      rw [← List.isEmpty_iff, ← List.isEmpty_iff, ← Bool.and_eq_true, Bool.not_eq_true] at hmore
      dsimp only
      rw [hmore]
      exact decide_eq_false hall

def segmentData (c : RawPar) (firstPixelPosition nPixels : Nat) (r : List UInt8) : List UInt8 :=
  UInt8.ofNat (c.lofp + (if r.length = c.nPixelsTotal then 1 <<< 7 else 0) +
      (if r.length = nPixels then 1 <<< 6 else 0)) ::
    UInt8.ofNat (firstPixelPosition >>> 8) :: UInt8.ofNat firstPixelPosition ::
    UInt8.ofNat nPixels ::
    (r.take nPixels ++ if c.fixedLength then List.replicate (0x2c - 4 - nPixels) 0xff else [])

structure Bounds (c : RawPar) (pLeft rLeft n : Nat) : Prop where
  pos : 0 < n
  le : n ≤ rLeft
  lt : n ≤ 251
  fixed : c.fixedLength = true → n ≤ 40
  room : (if c.fixedLength then 46 else 6 + n) ≤ pLeft

theorem nPixels_bounds (c : RawPar) {rLeft : Nat} (hleft : 0 < rLeft)
    (hroom : c.minDuSize ≤ pLeft) : Bounds c pLeft rLeft (c.nPixels pLeft rLeft) := by
  have hcritical : c.critPLeft = 258 ∨ c.critPLeft = 0 := by
    rw [RawPar.critPLeft]
    split
    · exact Or.inl rfl
    · exact Or.inr rfl
  rw [RawPar.minDuSize] at hroom
  rw [RawPar.nPixels]
  by_cases hfixed : c.fixedLength = true
  · rw [if_pos hfixed] at hroom ⊢
    constructor
    case room =>
      rw [if_pos hfixed]
      exact hroom
    all_goals omega
  · rw [if_neg hfixed] at hroom ⊢
    split
    · constructor
      case fixed => exact fun h => absurd h hfixed
      case room =>
        rw [if_neg hfixed]
        omega
      all_goals omega
    · constructor
      case fixed => exact fun h => absurd h hfixed
      case room =>
        rw [if_neg hfixed]
        omega
      all_goals omega

theorem segmentData_length (h : Bounds c pLeft r.length n) (firstPixelPosition : Nat) :
    (segmentData c firstPixelPosition n r).length = if c.fixedLength then 0x2c else 4 + n := by
  have hfixed := h.fixed
  rw [segmentData]
  simp only [List.length_cons, List.length_append, List.length_take_of_le h.le]
  split
  · rename_i hf
    have hle := hfixed hf
    rw [List.length_replicate]
    omega
  · rw [List.length_nil]
    omega

theorem segment_unit (h : Bounds c pLeft r.length n) (firstPixelPosition : Nat) :
    c.segment firstPixelPosition n r = unitBytes (0xc6, segmentData c firstPixelPosition n r) := by
  rw [unitBytes, segmentData_length h]
  rfl

theorem flags (first last : Bool) {lofp : Nat} (h : lofp < 64) :
    let b := (UInt8.ofNat (lofp + (if first then 1 <<< 7 else 0) +
      (if last then 1 <<< 6 else 0))).toNat
    b.testBit 7 = first ∧ b.testBit 6 = last ∧ b % 64 = lofp := by
  have hlt : lofp + (if first then 1 <<< 7 else 0) + (if last then 1 <<< 6 else 0) < 256 := by
    have hfirst : (if first then 1 <<< 7 else 0) ≤ 128 := by cases first <;> decide
    have hlast : (if last then 1 <<< 6 else 0) ≤ 64 := by cases last <;> decide
    omega
  dsimp only
  rw [UInt8.toNat_ofNat', Nat.mod_eq_of_lt hlt, Nat.testBit_eq_decide_div_mod_eq,
    Nat.testBit_eq_decide_div_mod_eq]
  cases first <;> cases last <;> simp <;> omega

structure CodedBy (c : RawPar) (l : LineCode) : Prop where
  lofp : c.lofp = l.lofp
  lofp_lt : l.lofp < 64
  nPixelsTotal : c.nPixelsTotal = l.nPixelsTotal
  within : l.firstPixelPosition + l.nPixelsTotal ≤ 720

def Complete (data : List UInt8) : Prop := 4 + (data.getD 3 0).toNat ≤ data.length

theorem segmentOf_append {data : List UInt8} (h : Complete data) (more : List UInt8) :
    segmentOf (data ++ more) = segmentOf data := by
  rw [Complete] at h
  have hget : ∀ i, i < 4 → (data ++ more).getD i 0 = data.getD i 0 := by
    intro i hi
    rw [List.getD_append _ _ _ _ (by omega)]
  rw [segmentOf, segmentOf, hget 0 (by decide), hget 1 (by decide), hget 2 (by decide),
    hget 3 (by decide), List.drop_append_of_le_length (by omega),
    List.take_append_of_le_length (by rw [List.length_drop]; omega)]

theorem segmentOf_segmentData (hc : CodedBy c l) (h : Bounds c pLeft r.length n)
    (hr : r.length ≤ l.nPixelsTotal) :
    segmentOf (segmentData c (l.firstPixelPosition + (l.nPixelsTotal - r.length)) n r) =
        ⟨r.length = l.nPixelsTotal, r.length = n, l.lofp,
          l.firstPixelPosition + (l.nPixelsTotal - r.length), n, r.take n⟩ ∧
      Complete (segmentData c (l.firstPixelPosition + (l.nPixelsTotal - r.length)) n r) := by
  have hpos := h.pos
  have hle := h.le
  have hlt := h.lt
  have hwithin := hc.within
  generalize hposition : l.firstPixelPosition + (l.nPixelsTotal - r.length) = position
  obtain ⟨hfirst, hlast, hlofp⟩ := flags (r.length = l.nPixelsTotal) (r.length = n) hc.lofp_lt
  have hn : (UInt8.ofNat n).toNat = n := by
    rw [UInt8.toNat_ofNat']
    exact Nat.mod_eq_of_lt (by omega)
  have hbytes : (UInt8.ofNat (position >>> 8)).toNat * 256 + (UInt8.ofNat position).toNat =
      position := by
    rw [UInt8.toNat_ofNat', UInt8.toNat_ofNat', Nat.shiftRight_eq_div_pow]
    omega
  have hdata : segmentData c position n r =
      UInt8.ofNat (l.lofp + (if r.length = l.nPixelsTotal then 1 <<< 7 else 0) +
          (if r.length = n then 1 <<< 6 else 0)) ::
        UInt8.ofNat (position >>> 8) :: UInt8.ofNat position :: UInt8.ofNat n ::
        (r.take n ++ if c.fixedLength then List.replicate (0x2c - 4 - n) 0xff else []) := by
    rw [segmentData, hc.lofp, hc.nPixelsTotal]
  simp only [decide_eq_true_eq] at hfirst hlast hlofp
  constructor
  · rw [hdata, segmentOf]
    simp only [List.getD_cons_zero, List.getD_cons_succ, List.drop_succ_cons, List.drop_zero,
      hfirst, hlast, hlofp, hbytes, hn]
    rw [List.take_append_of_le_length (Nat.le_of_eq (List.length_take_of_le hle).symm),
      List.take_take, Nat.min_self]
  · rw [Complete, segmentData_length h, hdata]
    simp only [List.getD_cons_zero, List.getD_cons_succ, hn]
    split
    · rename_i hf
      have hfixed := h.fixed hf
      omega
    · exact Nat.le_refl _

def size (b : Buffer) : Nat := b.packet.length + b.pLeft

theorem size_store {du : List UInt8} (h : du.length ≤ b.pLeft) :
    size (b.store du) = size b := by
  rw [size, size, Buffer.store_packet, Buffer.store_pLeft, List.length_append]
  omega

def IsSegment (u : UInt8 × List UInt8) : Prop := u.1 = 0xc6 ∧ Complete u.2

theorem rawLoop_cuts {c : RawPar} {l : LineCode} (hc : CodedBy c l) (fuel : Nat) {b : Buffer}
    {r : List UInt8} {us : List (UInt8 × List UInt8)} (hr : r.length ≤ l.nPixelsTotal)
    (h : Holds b us) :
    ∃ vs, Holds (rawLoop c fuel (l.firstPixelPosition + (l.nPixelsTotal - r.length)) b r).1
        (us ++ vs) ∧
      (∀ u ∈ vs, IsSegment u) ∧
      Cuts l r (vs.map fun u => segmentOf u.2)
        (rawLoop c fuel (l.firstPixelPosition + (l.nPixelsTotal - r.length)) b r).2 ∧
      size (rawLoop c fuel (l.firstPixelPosition + (l.nPixelsTotal - r.length)) b r).1 =
        size b := by
  induction fuel generalizing b r us with
  | zero => exact ⟨[], (List.append_nil us).symm ▸ h, List.forall_mem_nil _, .stop r, rfl⟩
  | succ fuel ih =>
    rw [rawLoop]
    by_cases hstop : r.length = 0 ∨ b.pLeft < c.minDuSize
    · rw [if_pos hstop]
      exact ⟨[], (List.append_nil us).symm ▸ h, List.forall_mem_nil _, .stop r, rfl⟩
    rw [if_neg hstop]
    dsimp only
    have hbounds := nPixels_bounds c (by omega : 0 < r.length) (by omega : c.minDuSize ≤ b.pLeft)
    generalize c.nPixels b.pLeft r.length = n at *
    obtain ⟨hsegment, hcomplete⟩ := segmentOf_segmentData hc hbounds hr
    have hlength := segmentData_length hbounds
      (l.firstPixelPosition + (l.nPixelsTotal - r.length))
    have hsized : (segmentData c (l.firstPixelPosition + (l.nPixelsTotal - r.length)) n r).length
        < 256 := by
      have hlt := hbounds.lt
      rw [hlength]
      split <;> omega
    have hle := hbounds.le
    have hnext : l.firstPixelPosition + (l.nPixelsTotal - r.length) + n =
        l.firstPixelPosition + (l.nPixelsTotal - (r.drop n).length) := by
      rw [List.length_drop]
      omega
    have hrest : (r.drop n).length ≤ l.nPixelsTotal := by
      rw [List.length_drop]
      omega
    rw [segment_unit hbounds, hnext]
    obtain ⟨vs, hholds, hsegments, hcuts, hroom⟩ := ih hrest (@Holds.store _ _ h
      (0xc6, segmentData c (l.firstPixelPosition + (l.nPixelsTotal - r.length)) n r) hsized)
    rw [List.append_assoc, List.singleton_append] at hholds
    refine ⟨_ :: vs, hholds, ?_, ?_, hroom.trans ?_⟩
    · rw [List.forall_mem_cons]
      exact ⟨⟨rfl, hcomplete⟩, hsegments⟩
    · rw [List.map_cons, hsegment]
      exact .segment hbounds.pos hle hcuts
    · have hfits := hbounds.room
      apply size_store
      rw [unitBytes_length, hlength]
      split
      · rename_i hf
        rwa [if_pos hf] at hfits
      · rename_i hf
        rw [if_neg hf] at hfits
        omega

/-- With one byte left stuffing finds a unit which can grow. -/
theorem rawLoop_critical {c : RawPar} (hstuffing : c.stuffing = true) (fuel position : Nat)
    {b : Buffer} (r : List UInt8) (h : b.pLeft = 1 → b.lastDuSize ≠ 257) :
    (rawLoop c fuel position b r).1.pLeft = 1 →
      (rawLoop c fuel position b r).1.lastDuSize ≠ 257 := by
  induction fuel generalizing position b r with
  | zero => exact h
  | succ fuel ih =>
    rw [rawLoop]
    by_cases hstop : r.length = 0 ∨ b.pLeft < c.minDuSize
    · rw [if_pos hstop]
      exact h
    rw [if_neg hstop]
    apply ih
    rw [Buffer.store_pLeft, Buffer.store_lastDuSize, segment_length]
    split
    · omega
    · rename_i hvariable
      intro hone hmax
      have hcritical : c.critPLeft = b.pLeft := by
        rw [RawPar.critPLeft, if_pos hstuffing]
        omega
      rw [RawPar.nPixels, if_neg hvariable, if_pos hcritical] at hmax
      omega

theorem segments_flatMap {us fill : List (UInt8 × List UInt8)}
    (hsized : ∀ u ∈ us ++ fill, u.2.length < 256) (hus : ∀ u ∈ us, u.1 = 0xc6)
    (hfill : ∀ u ∈ fill, u.1 = 0xff) :
    segments ((us ++ fill).flatMap unitBytes) = us.map fun u => segmentOf u.2 := by
  have hnone : fill.filter (fun u => u.1 = 0xc6) = [] := by
    rw [List.filter_eq_nil_iff]
    intro u hu
    rw [hfill u hu]
    decide
  have hall : us.filter (fun u => u.1 = 0xc6) = us :=
    List.filter_eq_self.mpr fun u hu => decide_eq_true (hus u hu)
  rw [segments, dataUnits_flatMap hsized, List.filter_append, hnone, hall, List.append_nil]

theorem segments_stuffed {us : List (UInt8 × List UInt8)} {packet : List UInt8}
    (hus : ∀ u ∈ us, IsSegment u) (h : Stuffed us packet) :
    Tiled packet ∧ segments packet = us.map fun u => segmentOf u.2 := by
  obtain ⟨us', fill, henlarged, hfill, hsized, rfl⟩ := h.units
  refine ⟨tiled_flatMap hsized, ?_⟩
  cases henlarged with
  | same => exact segments_flatMap hsized (fun u hu => (hus u hu).1) hfill
  | last us id data =>
    rw [List.forall_mem_append, List.forall_mem_singleton] at hus
    obtain ⟨hus, hid, hcomplete⟩ := hus
    rw [segments_flatMap hsized _ hfill, List.map_append, List.map_append, List.map_singleton,
      List.map_singleton, segmentOf_append hcomplete]
    rw [List.forall_mem_append, List.forall_mem_singleton]
    exact ⟨fun u hu => (hus u hu).1, hid⟩

/-- A line of raw samples as it is submitted in every call. -/
structure Line where
  videostdSet : Nat
  line : Nat
  firstPixelPosition : Nat
  nPixelsTotal : Nat

def Line.code (l : Line) : LineCode where
  firstPixelPosition := l.firstPixelPosition
  nPixelsTotal := l.nPixelsTotal
  lofp := (f2Start l.videostdSet).elim 0 fun f2 =>
    (if f2 ≤ l.line then 0 else 1 <<< 5) + if f2 ≤ l.line then l.line - f2 else l.line

structure Stores (l : Line) (packetLeft : Nat) (r : List UInt8) (o : Output UInt8) : Prop where
  accepted : r.length ≤ l.nPixelsTotal
  tiled : Tiled o.packet
  size : o.packet.length + o.packetLeft = packetLeft
  cuts : Cuts l.code r (segments o.packet) o.left

variable {fixedLength : Bool} {o : Output UInt8} {packetLeft : Nat}

theorem insertRawDataUnits_loop {l : Line}
    {stored : Buffer × List UInt8}
    (h : insertRawDataUnits b r fixedLength l.videostdSet l.line l.firstPixelPosition
      l.nPixelsTotal stuffing = .ok stored) :
    r.length ≤ l.nPixelsTotal ∧ ∃ c : RawPar, CodedBy c l.code ∧ c.stuffing = stuffing ∧
      c.fixedLength = fixedLength ∧
      rawLoop c r.length (l.code.firstPixelPosition + (l.code.nPixelsTotal - r.length))
        { b with lastDuSize := 0 } r = stored := by
  rw [insertRawDataUnits] at h
  split at h
  · cases h
  rename_i f2 hf2
  by_cases hcount : l.nPixelsTotal < r.length ∨ 720 < l.firstPixelPosition + l.nPixelsTotal
  · rw [if_pos hcount] at h
    cases h
  rw [if_neg hcount] at h
  dsimp only at h
  generalize hline : (if f2 ≤ l.line then l.line - f2 else l.line) = fieldLine at h
  by_cases hillegal : fieldLine < 7 ∨ 23 < fieldLine
  · rw [if_pos hillegal] at h
    cases h
  rw [if_neg hillegal] at h
  have hlofp : l.code.lofp = (if f2 ≤ l.line then 0 else 1 <<< 5) + fieldLine := by
    rw [Line.code, hf2, Option.elim_some, hline]
  have hparity : (if f2 ≤ l.line then 0 else 1 <<< 5) ≤ 32 := by
    split <;> decide
  refine ⟨by omega, _, ⟨hlofp.symm, by omega, rfl, ?_⟩, rfl, rfl, Except.ok.inj h⟩
  change l.firstPixelPosition + l.nPixelsTotal ≤ 720
  omega

theorem finish_stores {l : Line} {us : List (UInt8 × List UInt8)}
    (h : finish b fixedLength stuffing left = .ok o) (hr : r.length ≤ l.nPixelsTotal)
    (hsize : size b = packetLeft) (hholds : Holds b us) (hus : ∀ u ∈ us, IsSegment u)
    (hcuts : Cuts l.code r (us.map fun u => segmentOf u.2) left)
    (hcritical : stuffing = true → b.pLeft = 1 → b.lastDuSize ≠ 257) :
    Stores l packetLeft r o := by
  rw [finish] at h
  split at h
  · rename_i hstuffing
    split at h
    · cases h
    · rename_i packet hpacket
      cases h
      obtain ⟨htiled, hsegments⟩ :=
        segments_stuffed hus (encodeStuffing_stuffed hholds (hcritical hstuffing) hpacket)
      refine ⟨hr, htiled, ?_, ?_⟩
      · rw [← hsize]
        exact DvbMuxPackets.encodeStuffing_length hpacket
      · rw [hsegments]
        exact hcuts
  · cases h
    have hsized : ∀ u ∈ us ++ [], u.2.length < 256 := by
      rw [List.append_nil]
      exact hholds.sized
    have hsegments := segments_flatMap hsized (fun u hu => (hus u hu).1) (List.forall_mem_nil _)
    rw [List.append_nil] at hsegments
    refine ⟨hr, ?_, hsize, ?_⟩
    · dsimp only
      rw [hholds.packet]
      exact tiled_flatMap hholds.sized
    · dsimp only
      rw [hholds.packet, hsegments]
      exact hcuts

theorem vbiDvbMultiplexRaw_stores {l : Line} {dataIdentifier : Nat}
    (h : vbiDvbMultiplexRaw packetLeft r dataIdentifier l.videostdSet l.line
      l.firstPixelPosition l.nPixelsTotal stuffing = .ok o) (hok : o.ok = true) :
    Stores l packetLeft r o := by
  rw [vbiDvbMultiplexRaw] at h
  split at h
  · cases h
    cases hok
  split at h
  · cases h
    cases hok
  rename_i b left hinsert
  obtain ⟨hr, c, hcoded, hstuffing, -, hloop⟩ := insertRawDataUnits_loop hinsert
  obtain ⟨us, hholds, hus, hcuts, hsize⟩ :=
    @rawLoop_cuts c l.code hcoded r.length ⟨[], packetLeft, 0⟩ r [] hr (holds_nil packetLeft)
  rw [List.nil_append] at hholds
  dsimp only at hloop
  rw [hloop] at hholds hcuts hsize
  refine finish_stores h hr (hsize.trans (Nat.zero_add _)) hholds hus hcuts ?_
  rintro rfl
  have hcritical := @rawLoop_critical c hstuffing r.length
    (l.code.firstPixelPosition + (l.code.nPixelsTotal - r.length)) ⟨[], packetLeft, 0⟩ r
    (fun _ h => by cases h)
  rwa [hloop] at hcritical

/-- Successful calls with buffers of any size, which code the samples up to those left. The
data_identifier and stuffing may differ from call to call. -/
inductive Calls (l : Line) : List UInt8 → List (Nat × Output UInt8) → List UInt8 → Prop
  | nil (r : List UInt8) : Calls l r [] r
  | call {packetLeft dataIdentifier : Nat} {stuffing : Bool} {r t : List UInt8} {o : Output UInt8}
      {os : List (Nat × Output UInt8)}
      (h : vbiDvbMultiplexRaw packetLeft r dataIdentifier l.videostdSet l.line
        l.firstPixelPosition l.nPixelsTotal stuffing = .ok o) (ok : o.ok = true)
      (rest : Calls l o.left os t) : Calls l r ((packetLeft, o) :: os) t

def lineSegments (os : List (Nat × Output UInt8)) : List Segment :=
  os.flatMap fun x => segments x.2.packet

theorem Calls.stores {l : Line} {os : List (Nat × Output UInt8)} (h : Calls l r os t) :
    (∀ x ∈ os, Tiled x.2.packet ∧ x.2.packet.length + x.2.packetLeft = x.1) ∧
      Cuts l.code r (lineSegments os) t ∧ (os ≠ [] → r.length ≤ l.nPixelsTotal) := by
  induction h with
  | nil r => exact ⟨List.forall_mem_nil _, .stop r, fun h => absurd rfl h⟩
  | call h ok rest ih =>
    obtain ⟨haccepted, htiled, hsize, hcuts⟩ := vbiDvbMultiplexRaw_stores h ok
    obtain ⟨hall, hrest, -⟩ := ih
    refine ⟨?_, hcuts.trans hrest, fun _ => haccepted⟩
    rw [List.forall_mem_cons]
    exact ⟨⟨htiled, hsize⟩, hall⟩

/-- Each buffer is filled with data units end to end up to the reported position. All segments
together contain the samples once and in order, each is where the segments before it
end, and the flags mark the first and the last one. -/
theorem raw_line_segments {l : Line} {r t : List UInt8} {os : List (Nat × Output UInt8)}
    (h : Calls l r os t) :
    (∀ x ∈ os, Tiled x.2.packet ∧ x.2.packet.length + x.2.packetLeft = x.1) ∧
      (lineSegments os).flatMap Segment.samples ++ t = r ∧
      ∀ us s vs, lineSegments os = us ++ s :: vs →
        Fits l.code (l.nPixelsTotal - r.length + (us.flatMap Segment.samples).length)
          (us.isEmpty && r.length = l.nPixelsTotal) (vs.isEmpty && t.isEmpty) s := by
  obtain ⟨hall, hcuts, haccepted⟩ := h.stores
  refine ⟨hall, hcuts.samples, fun us s vs hsplit => ?_⟩
  have hne : os ≠ [] := by
    rintro rfl
    exact absurd hsplit.symm (by simp [lineSegments])
  exact (hsplit ▸ hcuts).fits (haccepted hne)

/-- The second segment of 60 samples in two data units of 46 bytes. -/
theorem raw_line_segments_two : ∃ os s, Calls ⟨1, 20, 0, 60⟩ (List.replicate 60 16) os [] ∧
    (lineSegments os)[1]? = some s ∧ s.firstPixelPosition = 40 ∧ s.lastSegmentFlag = true := by
  have calls := @Calls.call ⟨1, 20, 0, 60⟩ 46 0x10 false (List.replicate 60 16) [] _ _ rfl rfl
    (@Calls.call _ 46 0x10 true _ _ _ _ rfl rfl (.nil _))
  obtain ⟨-, -, hfits⟩ := raw_line_segments calls
  refine ⟨_, _, calls, rfl, ?_⟩
  have hsecond := hfits [_] _ [] rfl
  exact ⟨hsecond.firstPixelPosition, hsecond.lastSegmentFlag⟩

end DvbRawSegments
