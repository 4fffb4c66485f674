import Zvbi.DvbMuxLayout
import Zvbi.DvbMuxPackets

/-!
# The data units of a frame

The lines which find room are coded one after the other. What the unit of a sliced
line says of the lines before it depends only on the lines behind the last raw line,
as each call of `insert_sliced_data_units()` starts over.
-/

namespace DvbMuxCoding
open DvbMuxUnits DvbMux DvbMuxLayout
open DvbFrame (Sliced)

/-- What `insert_sliced_data_units()` remembers of the lines before: the last line number
and the size of the last data unit. -/
structure Span where
  lastLine : Nat
  lastDuSize : Nat

def Span.next (fixedLength : Bool) (serviceMask : Nat) (p : Span) (s : Sliced) : Span :=
  if s.id = vbiSlicedVbi625 then ⟨0, 0⟩
  else if s.id &&& serviceMask = 0 then p
  else ⟨if 0 < s.line then s.line else p.lastLine,
    (service s.id).elim 0 fun v => v.size fixedLength⟩

/-- The data unit of a sliced line, where `lastLine` is the number of this or an earlier
line. -/
def slicedUnit (fixedLength : Bool) (lastLine : Nat) (s : Sliced) : Option (List UInt8) :=
  (service s.id).bind fun v =>
    (lofp s.line lastLine).map fun l => v.dataUnit (v.size fixedLength) l s.data

structure UnitOf (fixedLength : Bool) (f : FrameData) (c : Place) (p : Span) (s : Sliced)
    (unit : List UInt8) : Prop where
  length : unit.length =
    if s.id &&& f.serviceMask = 0 then 0 else lineSize fixedLength f c.pending s
  sliced : s.id ≠ vbiSlicedVbi625 → s.id &&& f.serviceMask ≠ 0 →
    slicedUnit fixedLength (p.next fixedLength f.serviceMask s).lastLine s = some unit

inductive Laid (fixedLength : Bool) (f : FrameData) :
    Place → Span → List Sliced → List UInt8 → Place → Span → Prop
  | nil (c : Place) (p : Span) : Laid fixedLength f c p [] [] c p
  | cons {c d e : Place} {p q : Span} {s : Sliced} {us : List Sliced} {unit bytes : List UInt8}
      (placed : place fixedLength f c s = some d) (coded : UnitOf fixedLength f c p s unit)
      (rest : Laid fixedLength f d (p.next fixedLength f.serviceMask s) us bytes e q) :
      Laid fixedLength f c p (s :: us) (unit ++ bytes) e q

variable {fixedLength : Bool} {f : FrameData}

variable {bytes : List UInt8} {c e : Place} {p q : Span} {us : List Sliced} {b : Buffer}

theorem Laid.layOut (h : Laid fixedLength f c p us bytes e q) :
    layOut fixedLength f c us = some e := by
  induction h with
  | nil c p => rfl
  | cons placed coded rest ih => rw [layOut_cons, placed, Option.bind_some, ih]

theorem Laid.span (h : Laid fixedLength f c p us bytes e q) :
    q = us.foldl (Span.next fixedLength f.serviceMask) p := by
  induction h with
  | nil c p => rfl
  | cons placed coded rest ih => exact ih

variable {d : Place} {r : Span} {vs : List Sliced} {s : Sliced} {b' : Buffer} {left : List UInt8}
  {line : Nat} {pending : RawLine} {sp : SamplingPar}

theorem Laid.append {xs ys : List UInt8} (h : Laid fixedLength f c p us xs d q)
    (k : Laid fixedLength f d q vs ys e r) :
    Laid fixedLength f c p (us ++ vs) (xs ++ ys) e r := by
  induction h with
  | nil c p => exact k
  | cons placed coded rest ih =>
    rw [List.append_assoc]
    exact .cons placed coded (ih k)

theorem Laid.split (h : Laid fixedLength f c p (us ++ vs) bytes e r) :
    ∃ d q xs ys, Laid fixedLength f c p us xs d q ∧ Laid fixedLength f d q vs ys e r ∧
      bytes = xs ++ ys := by
  induction us generalizing c p bytes with
  | nil => exact ⟨c, p, [], bytes, .nil c p, h, rfl⟩
  | cons s us ih =>
    cases h with
    | cons placed coded rest =>
      obtain ⟨d, q, xs, ys, hbefore, hbehind, rfl⟩ := ih rest
      exact ⟨d, q, _, ys, .cons placed coded hbefore, hbehind, (List.append_assoc _ _ _).symm⟩

theorem place_room {unit : List UInt8} (placed : place fixedLength f c s = some d)
    (coded : UnitOf fixedLength f c p s unit) : d.room + unit.length = c.room := by
  have hlength := coded.length
  rw [place] at placed
  split at placed
  · rename_i hmask
    cases placed
    rw [if_pos hmask] at hlength
    omega
  rename_i hmask
  rw [if_neg hmask] at hlength
  split at placed
  · rename_i hfits
    cases placed
    have hroom : lineSize fixedLength f c.pending s ≤ c.room := by
      have hfits' := hfits.2
      rw [Fits] at hfits'
      split at hfits'
      · rename_i hraw
        rw [lineSize, if_pos hraw]
        exact hfits'.1
      · exact hfits'
    dsimp only
    omega
  · cases placed

theorem Laid.length (h : Laid fixedLength f c p us bytes e q) : e.room + bytes.length = c.room := by
  induction h with
  | nil c p => rfl
  | cons placed coded rest ih =>
    have hroom := place_room placed coded
    rw [List.length_append]
    omega

/-- The last unit is not larger than what is stored. -/
theorem Laid.lastDuSize (h : Laid fixedLength f c p us bytes e q) :
    q.lastDuSize ≤ bytes.length ∨ (q.lastDuSize = p.lastDuSize ∧ bytes = []) := by
  induction h with
  | nil c p => exact Or.inr ⟨rfl, rfl⟩
  | @cons c d e p q s us unit bytes placed coded rest ih =>
    rcases ih with hle | ⟨hsame, rfl⟩
    · rw [List.length_append]
      exact Or.inl (Nat.le_trans hle (Nat.le_add_left _ _))
    rw [hsame, List.append_nil, Span.next]
    by_cases hraw : s.id = vbiSlicedVbi625
    · rw [if_pos hraw]
      exact Or.inl (Nat.zero_le _)
    rw [if_neg hraw]
    have hlength := coded.length
    by_cases hmask : s.id &&& f.serviceMask = 0
    · rw [if_pos hmask] at hlength ⊢
      exact Or.inr ⟨rfl, List.eq_nil_of_length_eq_zero hlength⟩
    · rw [if_neg hmask, lineSize, if_neg hraw] at hlength
      rw [if_neg hmask]
      exact Or.inl (Nat.le_of_eq hlength.symm)

theorem insertLoop_laid (lastLine : Nat) (b : Buffer) (hsliced : ∀ s ∈ us, s.id ≠ vbiSlicedVbi625)
    (pending : Nat) :
    ∃ coded bytes q, us = coded ++ (insertLoop f.serviceMask fixedLength lastLine b us).rest ∧
      Laid fixedLength f ⟨b.pLeft, pending⟩ ⟨lastLine, b.lastDuSize⟩ coded bytes
        ⟨(insertLoop f.serviceMask fixedLength lastLine b us).buffer.pLeft, pending⟩ q ∧
      (insertLoop f.serviceMask fixedLength lastLine b us).buffer.packet = b.packet ++ bytes ∧
      (insertLoop f.serviceMask fixedLength lastLine b us).buffer.lastDuSize = q.lastDuSize := by
  -- the loop stops at the first line
  have hstop : ∀ (lastLine : Nat) (b : Buffer) (us : List Sliced) (err : Option Err),
      ∃ coded bytes q, us = coded ++ (Insertion.mk b us err).rest ∧
        Laid fixedLength f ⟨b.pLeft, pending⟩ ⟨lastLine, b.lastDuSize⟩ coded bytes
          ⟨(Insertion.mk b us err).buffer.pLeft, pending⟩ q ∧
        (Insertion.mk b us err).buffer.packet = b.packet ++ bytes ∧
        (Insertion.mk b us err).buffer.lastDuSize = q.lastDuSize :=
    fun lastLine b us err =>
      ⟨[], [], ⟨lastLine, b.lastDuSize⟩, rfl, .nil _ _, (List.append_nil _).symm, rfl⟩
  induction us generalizing lastLine b with
  | nil => exact hstop lastLine b [] none
  | cons s us ih =>
    rw [List.forall_mem_cons] at hsliced
    obtain ⟨hid, hrest⟩ := hsliced
    rw [insertLoop]
    by_cases hmask : s.id &&& f.serviceMask = 0
    · rw [if_pos hmask]
      obtain ⟨coded, bytes, q, hus, hlaid, hpacket, hlast⟩ := ih lastLine b hrest
      have hunit : UnitOf fixedLength f ⟨b.pLeft, pending⟩ ⟨lastLine, b.lastDuSize⟩ s [] := by
        refine ⟨?_, fun _ h => absurd hmask h⟩
        rw [if_pos hmask, List.length_nil]
      have hnext : Span.next fixedLength f.serviceMask ⟨lastLine, b.lastDuSize⟩ s =
          ⟨lastLine, b.lastDuSize⟩ := by
        rw [Span.next, if_neg hid, if_pos hmask]
      refine ⟨s :: coded, [] ++ bytes, q, congrArg (List.cons s) hus, ?_, hpacket, hlast⟩
      exact .cons (place_skip hmask _) hunit (hnext.symm ▸ hlaid)
    rw [if_neg hmask]
    by_cases horder : 0 < s.line ∧ s.line ≤ lastLine
    · rw [if_pos horder]
      exact hstop lastLine b _ _
    rw [if_neg horder]
    dsimp only
    split
    · exact hstop lastLine b _ _
    rename_i v hv
    by_cases hlegal : v.legal s.line = false
    · rw [if_pos hlegal]
      exact hstop lastLine b _ _
    rw [if_neg hlegal]
    by_cases hroom : b.pLeft < v.size fixedLength
    · rw [if_pos hroom]
      exact hstop lastLine b _ _
    rw [if_neg hroom]
    split
    · exact hstop lastLine b _ _
    rename_i l hl
    have hlength := dataUnit_length hv fixedLength l s.data
    have hsize : lineSize fixedLength f pending s = v.size fixedLength := by
      rw [lineSize, if_neg hid, hv, Option.elim_some]
    have hplace : place fixedLength f ⟨b.pLeft, pending⟩ s =
        some ⟨b.pLeft - v.size fixedLength, pending⟩ := by
      have hfits : Fits fixedLength f ⟨b.pLeft, pending⟩ s := by
        rw [Fits, if_neg hid]
        dsimp only
        omega
      have hcodable : codable f pending s = true := by
        rw [codable, if_neg hid, hv, Option.any_some]
        simpa using hlegal
      rw [place, if_neg hmask, if_pos ⟨hcodable, hfits⟩, if_neg hid]
      dsimp only
      rw [hsize]
    have hnext : Span.next fixedLength f.serviceMask ⟨lastLine, b.lastDuSize⟩ s =
        ⟨if 0 < s.line then s.line else lastLine, v.size fixedLength⟩ := by
      rw [Span.next, if_neg hid, if_neg hmask, hv, Option.elim_some]
    have hunit : UnitOf fixedLength f ⟨b.pLeft, pending⟩ ⟨lastLine, b.lastDuSize⟩ s
        (v.dataUnit (v.size fixedLength) l s.data) := by
      refine ⟨?_, fun _ _ => ?_⟩
      · rw [if_neg hmask, hlength]
        exact hsize.symm
      · rw [hnext, slicedUnit, hv, Option.bind_some, hl, Option.map_some]
    obtain ⟨coded, bytes, q, hus, hlaid, hpacket, hlast⟩ :=
      ih (if 0 < s.line then s.line else lastLine)
        (b.store (v.dataUnit (v.size fixedLength) l s.data)) hrest
    rw [Buffer.store_pLeft, Buffer.store_lastDuSize, hlength] at hlaid
    rw [Buffer.store_packet, List.append_assoc] at hpacket
    refine ⟨s :: coded, _, q, congrArg (List.cons s) hus, ?_, hpacket, hlast⟩
    exact .cons hplace hunit (hnext.symm ▸ hlaid)

theorem insertSlicedDataUnits_laid (b : Buffer) {us : List Sliced}
    (hsliced : ∀ s ∈ us, s.id ≠ vbiSlicedVbi625) (pending : Nat) {i : Insertion}
    (hi : insertSlicedDataUnits f.serviceMask fixedLength b us = i) :
    ∃ coded bytes q, us = coded ++ i.rest ∧
      Laid fixedLength f ⟨b.pLeft, pending⟩ ⟨0, 0⟩ coded bytes ⟨i.buffer.pLeft, pending⟩ q ∧
      i.buffer.packet = b.packet ++ bytes ∧ i.buffer.lastDuSize = q.lastDuSize := by
  subst hi
  exact insertLoop_laid 0 { b with lastDuSize := 0 } hsliced pending

theorem rawLoop_stored (c : RawPar) (fuel firstPixelPosition : Nat) (b : Buffer)
    (r : List UInt8) :
    ∃ bytes, (rawLoop c fuel firstPixelPosition b r).1.packet = b.packet ++ bytes ∧
      ((rawLoop c fuel firstPixelPosition b r).1.lastDuSize ≤ bytes.length ∨
        ((rawLoop c fuel firstPixelPosition b r).1.lastDuSize = b.lastDuSize ∧ bytes = [])) := by
  induction fuel generalizing firstPixelPosition b r with
  | zero => exact ⟨[], (List.append_nil _).symm, Or.inr ⟨rfl, rfl⟩⟩
  | succ fuel ih =>
    rw [rawLoop]
    split
    · exact ⟨[], (List.append_nil _).symm, Or.inr ⟨rfl, rfl⟩⟩
    dsimp only
    generalize c.segment firstPixelPosition (c.nPixels b.pLeft r.length) r = du
    obtain ⟨bytes, hpacket, hlast⟩ := ih (firstPixelPosition + c.nPixels b.pLeft r.length)
      (b.store du) (r.drop (c.nPixels b.pLeft r.length))
    rw [Buffer.store_packet, List.append_assoc] at hpacket
    refine ⟨du ++ bytes, hpacket, Or.inl ?_⟩
    rw [List.length_append]
    rcases hlast with hle | ⟨hsame, rfl⟩
    · omega
    · rw [hsame]
      exact Nat.le_add_right _ _

structure RawStored (fixedLength : Bool) (b : Buffer) (n : Nat) (b' : Buffer)
    (left : List UInt8) (unit : List UInt8) : Prop where
  packet : b'.packet = b.packet ++ unit
  lastDuSize : b'.lastDuSize ≤ unit.length
  fits : left = [] → RawFits fixedLength b.pLeft n ∧ b'.pLeft = b.pLeft - rawSize fixedLength n

theorem insertRawDataUnits_stored {raw : List UInt8} {n pos : Nat}
    (h : insertRawDataUnits b raw fixedLength vbiVideostdSet62550 line pos n true =
      .ok (b', left)) :
    (7 ≤ fieldLine line ∧ fieldLine line ≤ 23) ∧
      ∃ unit, RawStored fixedLength b raw.length b' left unit := by
  rw [insertRawDataUnits, show f2Start vbiVideostdSet62550 = some 313 from rfl] at h
  dsimp only at h
  by_cases hcount : n < raw.length ∨ 720 < pos + n
  · rw [if_pos hcount] at h
    cases h
  rw [if_neg hcount] at h
  change (if fieldLine line < 7 ∨ 23 < fieldLine line then _ else _) = _ at h
  by_cases hline : fieldLine line < 7 ∨ 23 < fieldLine line
  · rw [if_pos hline] at h
    cases h
  rw [if_neg hline] at h
  refine ⟨by omega, ?_⟩
  generalize hc : RawPar.mk fixedLength true _ n = c at h
  have hfixed : c.fixedLength = fixedLength := by rw [← hc]
  have hstuffing : c.stuffing = true := by rw [← hc]
  have hloop := Except.ok.inj h
  obtain ⟨unit, hpacket, hlast⟩ :=
    rawLoop_stored c raw.length (pos + (n - raw.length)) { b with lastDuSize := 0 } raw
  rw [hloop] at hpacket hlast
  refine ⟨unit, hpacket, ?_, ?_⟩
  · rcases hlast with hle | ⟨hzero, -⟩
    · exact hle
    · rw [hzero]
      exact Nat.zero_le _
  · intro hleft
    have hfits : RawFits c.fixedLength b.pLeft raw.length := by
      by_contra hstuck
      have hrest := (@rawLoop_stuck c hstuffing raw.length (pos + (n - raw.length))
        { b with lastDuSize := 0 } raw (Nat.le_refl _) hstuck).1
      rw [hloop] at hrest
      exact hrest hleft
    have hroom := (@rawLoop_fits c hstuffing raw.length (pos + (n - raw.length))
      { b with lastDuSize := 0 } raw (Nat.le_refl _) hfits).2
    rw [hloop, hfixed] at hroom
    exact ⟨hfixed ▸ hfits, hroom⟩

theorem insertRawLine_stored (h : insertRawLine fixedLength f b pending line = .stored b' left sp) :
    (0 < pending.samples.length ∨ (samplesPointer f.raw f.sp line).isOk = true) ∧
      (7 ≤ fieldLine line ∧ fieldLine line ≤ 23) ∧
      ∃ unit, RawStored fixedLength b (sampleCount f pending.samples.length) b' left unit := by
  rw [insertRawLine] at h
  split at h
  · split at h
    · split at h
      · cases h
      · cases h
    · cases h
  rename_i sp' hsp
  split at h
  · cases h
  rename_i samples hsamples
  split at h
  · cases h
  split at h
  · cases h
  rename_i hstored
  cases h
  obtain ⟨hline, unit, hunit⟩ := insertRawDataUnits_stored hstored
  have hcount : samples.length = sampleCount f pending.samples.length ∧
      (0 < pending.samples.length ∨ (samplesPointer f.raw f.sp line).isOk = true) := by
    rw [rawSamples] at hsamples
    by_cases hempty : pending.samples.isEmpty = true
    · rw [if_pos hempty] at hsamples
      have hzero : pending.samples.length = 0 := by
        rw [List.isEmpty_iff.mp hempty, List.length_nil]
      cases hpointer : samplesPointer f.raw f.sp line with
      | error e =>
        rw [hpointer] at hsamples
        cases hsamples
      | ok pointer =>
        rw [hpointer] at hsamples
        refine ⟨?_, Or.inr rfl⟩
        rw [← Except.ok.inj hsamples, sampleCount, if_pos hzero, hsp, Option.elim_some,
          List.length_map, List.length_range]
    · rw [if_neg hempty] at hsamples
      have hpos : 0 < pending.samples.length :=
        List.length_pos_iff.mpr fun hnil => hempty (List.isEmpty_iff.mpr hnil)
      refine ⟨?_, Or.inl hpos⟩
      rw [← Except.ok.inj hsamples, sampleCount, if_neg (Nat.ne_of_gt hpos)]
  rw [hcount.1] at hunit
  exact ⟨hcount.2, hline, unit, hunit⟩

theorem insertRawLine_laid (hraw : s.id = vbiSlicedVbi625) (hmask : s.id &&& f.serviceMask ≠ 0)
    (h : insertRawLine fixedLength f b pending s.line = .stored b' [] sp) (p : Span) :
    ∃ unit, place fixedLength f ⟨b.pLeft, pending.samples.length⟩ s = some ⟨b'.pLeft, 0⟩ ∧
      UnitOf fixedLength f ⟨b.pLeft, pending.samples.length⟩ p s unit ∧
      b'.packet = b.packet ++ unit := by
  obtain ⟨hsamples, hline, unit, hpacket, -, hfits⟩ := insertRawLine_stored h
  obtain ⟨hfits, hleft⟩ := hfits rfl
  have hsize : lineSize fixedLength f pending.samples.length s =
      rawSize fixedLength (sampleCount f pending.samples.length) := by
    rw [lineSize, if_pos hraw]
  refine ⟨unit, ?_, ⟨?_, fun hid => absurd hraw hid⟩, hpacket⟩
  · have hcodable : codable f pending.samples.length s = true := by
      rw [codable, if_pos hraw]
      simpa using ⟨hsamples, hline⟩
    have hroom : Fits fixedLength f ⟨b.pLeft, pending.samples.length⟩ s := by
      rw [Fits, if_pos hraw]
      exact hfits
    rw [place, if_neg hmask, if_pos ⟨hcodable, hroom⟩, if_pos hraw]
    dsimp only
    rw [hsize, hleft]
  · have hroom := DvbMuxPackets.insertRawLine_room h
    have hle := hfits.1
    rw [hpacket, List.length_append] at hroom
    rw [if_neg hmask]
    dsimp only
    omega

/-- The loop of `generate_pes_packet()` lays the lines end to end, and stores part of a raw
line behind them. -/
theorem generateLoop_laid {lastLine : Nat} {span : List Sliced} {g : Generation}
    (h : generateLoop fixedLength f lastLine span b pending us = .ok g) (herr : g.err = none)
    (hspan : ∀ s ∈ span, s.id ≠ vbiSlicedVbi625) :
    ∃ coded bytes part e q, span ++ us = coded ++ g.rest ∧
      Laid fixedLength f ⟨b.pLeft, pending.samples.length⟩ ⟨0, 0⟩ coded bytes e q ∧
      g.buffer.packet = b.packet ++ (bytes ++ part) ∧
      (g.buffer.lastDuSize ≤ part.length ∨
        (g.buffer.lastDuSize = q.lastDuSize ∧ part = [])) := by
  induction us generalizing lastLine span b pending with
  | nil =>
    obtain ⟨coded, bytes, q, hus, hlaid, hpacket, hlast⟩ :=
      @insertSlicedDataUnits_laid fixedLength f b span hspan pending.samples.length _ rfl
    cases h
    refine ⟨coded, bytes, [], _, q, ?_, hlaid, ?_, Or.inr ⟨hlast, rfl⟩⟩
    · rw [List.append_nil]
      exact hus
    · rw [List.append_nil]
      exact hpacket
  | cons s us ih =>
    rw [generateLoop] at h
    split at h
    · cases h
      cases herr
    dsimp only at h
    by_cases hid : s.id ≠ vbiSlicedVbi625
    · rw [if_pos hid] at h
      have hspan' : ∀ t ∈ span ++ [s], t.id ≠ vbiSlicedVbi625 := by
        rw [List.forall_mem_append, List.forall_mem_singleton]
        exact ⟨hspan, hid⟩
      have hall := ih h hspan'
      rwa [List.append_assoc] at hall
    rw [if_neg hid] at h
    have hraw : s.id = vbiSlicedVbi625 := not_not.mp hid
    obtain ⟨coded, bytes, q, hus, hlaid, hpacket, hlast⟩ :=
      @insertSlicedDataUnits_laid fixedLength f b span hspan pending.samples.length _ rfl
    generalize insertSlicedDataUnits f.serviceMask fixedLength b span = i at *
    split at h
    · -- not all lines before the raw line find room
      cases h
      refine ⟨coded, bytes, [], _, q, ?_, hlaid, ?_, Or.inr ⟨hlast, rfl⟩⟩
      · rw [← List.append_assoc, ← hus]
      · rw [List.append_nil]
        exact hpacket
    rename_i hdone
    have hrest : i.rest = [] := by
      by_contra hrest
      exact hdone (Or.inr hrest)
    rw [hrest, List.append_nil] at hus
    subst hus
    have hnext : q.next fixedLength f.serviceMask s = ⟨0, 0⟩ := by
      rw [Span.next, if_pos hraw]
    -- the raw line and what follows it
    have hbehind : ∀ {unit : List UInt8} {b' : Buffer} {pending' : RawLine},
        place fixedLength f ⟨i.buffer.pLeft, pending.samples.length⟩ s =
          some ⟨b'.pLeft, pending'.samples.length⟩ →
        UnitOf fixedLength f ⟨i.buffer.pLeft, pending.samples.length⟩ q s unit →
        b'.packet = i.buffer.packet ++ unit →
        ∀ {lastLine : Nat}, generateLoop fixedLength f lastLine [] b' pending' us = .ok g →
        ∃ coded bytes part e q, span ++ s :: us = coded ++ g.rest ∧
          Laid fixedLength f ⟨b.pLeft, pending.samples.length⟩ ⟨0, 0⟩ coded bytes e q ∧
          g.buffer.packet = b.packet ++ (bytes ++ part) ∧
          (g.buffer.lastDuSize ≤ part.length ∨
            (g.buffer.lastDuSize = q.lastDuSize ∧ part = [])) := by
      intro unit b' pending' hplaced hunit hb' lastLine hloop
      obtain ⟨coded', bytes', part, e, r, hus', hlaid', hpacket', hlast'⟩ :=
        ih hloop (List.forall_mem_nil _)
      rw [List.nil_append] at hus'
      refine ⟨span ++ s :: coded', bytes ++ (unit ++ bytes'), part, e, r, ?_, ?_, ?_, hlast'⟩
      · rw [hus', List.append_assoc, List.cons_append]
      · exact hlaid.append (.cons hplaced hunit (hnext.symm ▸ hlaid'))
      · rw [hpacket', hb', hpacket]
        simp only [List.append_assoc]
    split at h
    · rename_i hmask
      rw [← hraw, Nat.and_comm] at hmask
      refine hbehind (place_skip hmask _) ⟨?_, fun h => absurd hraw h⟩
        (List.append_nil _).symm h
      rw [if_pos hmask, List.length_nil]
    rename_i hmask
    have hmask' : s.id &&& f.serviceMask ≠ 0 := by
      rw [hraw, Nat.and_comm]
      exact hmask
    split at h
    · cases h
    · cases h
      cases herr
    · rename_i b' left sp hstored
      split at h
      · rename_i hleft
        rw [List.isEmpty_iff.mp hleft] at hstored
        obtain ⟨unit, hplaced, hunit, hb'⟩ := insertRawLine_laid hraw hmask' hstored q
        exact @hbehind unit b' { pending with samples := [] } hplaced hunit hb' _ h
      · -- the rest of the line is for the next packet
        obtain ⟨-, -, part, hpart⟩ := insertRawLine_stored hstored
        cases h
        refine ⟨span, bytes, part, _, q, rfl, hlaid, ?_, Or.inl hpart.lastDuSize⟩
        rw [hpart.packet, hpacket, List.append_assoc]

end DvbMuxCoding
