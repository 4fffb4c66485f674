import Mathlib.Data.List.Induction
import Zvbi.DvbMuxCoding
import Zvbi.DvbMuxStreams

/-!
# The field of Teletext lines without a number

A Teletext line may have the number 0. Its data unit then belongs to the field of the
last unit before it which has a number. The multiplexer looks only at the units behind
the last raw line. If none of these has a number it assumes the first field.
-/

namespace DvbMuxParity
open DvbMuxUnits DvbMux DvbMuxLayout DvbMuxPackets DvbMuxCoding
open DvbFrame (Sliced vbiSlicedTeletextB)

/-- The byte with the field_parity of a unit without a line number, in the field of this
line. -/
def parity (line : Nat) : UInt8 := if 313 ≤ line then 0xc0 else 0xe0

/-- The last line number of the units of these lines, 0 if there is none. -/
def lastUnit (serviceMask : Nat) (us : List Sliced) : Nat :=
  lastOf 0 (us.filter fun s => s.id &&& serviceMask ≠ 0)

def Unnumbered (serviceMask : Nat) (us : List Sliced) : Prop :=
  ∃ x r y, us = x ++ r :: y ∧ r.id = vbiSlicedVbi625 ∧
    ∀ t ∈ y, t.id &&& serviceMask ≠ 0 → t.line = 0

/-- A raw line stands behind the last unit with a number, or is that unit, and this unit is
in the second field. -/
def Divided (serviceMask : Nat) (us : List Sliced) : Prop :=
  313 ≤ lastUnit serviceMask us ∧ Unnumbered serviceMask us

/-- Where the data unit of the line behind these begins in the packet. -/
def unitOffset (o : Options) (mx : State) (f : FrameData) (us : List Sliced) : Option Nat :=
  (layOut (fixedLengthFormat o.dataIdentifier) f ⟨o.size.max - 46, mx.raw.samples.length⟩ us).map
    fun c => o.size.max - c.room

theorem lastUnit_append (serviceMask : Nat) (us : List Sliced) (s : Sliced) :
    lastUnit serviceMask (us ++ [s]) =
      if s.id &&& serviceMask ≠ 0 ∧ 0 < s.line then s.line else lastUnit serviceMask us := by
  rw [lastUnit, List.filter_append, lastOf_append]
  by_cases hmask : s.id &&& serviceMask = 0
  · rw [List.filter_cons_of_neg (by simpa using hmask), if_neg (fun h => h.1 hmask)]
    rfl
  · rw [List.filter_cons_of_pos (by simpa using hmask)]
    by_cases hline : 0 < s.line
    · rw [if_pos ⟨hmask, hline⟩]
      exact if_pos hline
    · rw [if_neg fun h => hline h.2]
      exact if_neg hline

theorem unnumbered_append (serviceMask : Nat) (us : List Sliced) (s : Sliced) :
    Unnumbered serviceMask (us ++ [s]) ↔ s.id = vbiSlicedVbi625 ∨
      (¬ (s.id &&& serviceMask ≠ 0 ∧ 0 < s.line) ∧ Unnumbered serviceMask us) := by
  constructor
  · rintro ⟨x, r, y, hus, hr, hy⟩
    rcases List.eq_nil_or_concat y with rfl | ⟨y, t, rfl⟩
    · obtain ⟨-, hs⟩ := List.append_inj' hus rfl
      cases hs
      exact Or.inl hr
    · rw [List.concat_eq_append, ← List.cons_append, ← List.append_assoc] at hus
      obtain ⟨rfl, hs⟩ := List.append_inj' hus rfl
      cases hs
      rw [List.concat_eq_append, List.forall_mem_append, List.forall_mem_singleton] at hy
      refine Or.inr ⟨fun h => ?_, x, r, y, rfl, hr, hy.1⟩
      have hzero := hy.2 h.1
      omega
  · rintro (hraw | ⟨hnone, x, r, y, rfl, hr, hy⟩)
    · exact ⟨us, s, [], rfl, hraw, List.forall_mem_nil _⟩
    · refine ⟨x, r, y ++ [s], ?_, hr, ?_⟩
      · rw [List.append_assoc, List.cons_append]
      · rw [List.forall_mem_append, List.forall_mem_singleton]
        refine ⟨hy, fun hmask => ?_⟩
        by_contra hline
        exact hnone ⟨hmask, Nat.pos_of_ne_zero hline⟩

/-- The multiplexer remembers the last unit with a number unless a raw line follows it. -/
theorem span_lastLine (fixedLength : Bool) (serviceMask : Nat) (us : List Sliced) :
    (Unnumbered serviceMask us →
      (us.foldl (Span.next fixedLength serviceMask) ⟨0, 0⟩).lastLine = 0) ∧
    (¬ Unnumbered serviceMask us →
      (us.foldl (Span.next fixedLength serviceMask) ⟨0, 0⟩).lastLine =
        lastUnit serviceMask us) := by
  induction us using List.reverseRecOn with
  | nil => exact ⟨fun _ => rfl, fun _ => rfl⟩
  | append_singleton us s ih =>
    rw [List.foldl_append, List.foldl_cons, List.foldl_nil, unnumbered_append, lastUnit_append,
      Span.next]
    by_cases hraw : s.id = vbiSlicedVbi625
    · rw [if_pos hraw]
      exact ⟨fun _ => rfl, fun h => absurd (Or.inl hraw) h⟩
    rw [if_neg hraw]
    by_cases hmask : s.id &&& serviceMask = 0
    · rw [if_pos hmask, if_neg fun h => h.1 hmask]
      refine ⟨fun h => ih.1 (h.resolve_left hraw).2, fun h => ih.2 fun hus => h (Or.inr ⟨?_, hus⟩)⟩
      exact fun hs => hs.1 hmask
    rw [if_neg hmask]
    dsimp only
    by_cases hline : 0 < s.line
    · rw [if_pos hline, if_pos ⟨hmask, hline⟩]
      exact ⟨fun h => absurd ⟨hmask, hline⟩ (h.resolve_left hraw).1, fun _ => rfl⟩
    · rw [if_neg hline, if_neg fun h => hline h.2]
      refine ⟨fun h => ih.1 (h.resolve_left hraw).2, fun h => ih.2 fun hus => h (Or.inr ⟨?_, hus⟩)⟩
      exact fun hs => hline hs.2

/-- Only the first field can take the place of the second. -/
theorem parity_span (fixedLength : Bool) (serviceMask : Nat) (us : List Sliced) :
    parity (us.foldl (Span.next fixedLength serviceMask) ⟨0, 0⟩).lastLine =
        parity (lastUnit serviceMask us) ↔ ¬ Divided serviceMask us := by
  obtain ⟨hzero, hlast⟩ := span_lastLine fixedLength serviceMask us
  by_cases hus : Unnumbered serviceMask us
  · rw [hzero hus]
    constructor
    · rintro hsame ⟨hsecond, -⟩
      rw [parity, parity, if_pos hsecond] at hsame
      exact absurd hsame (by decide)
    · intro h
      have hfirst : ¬ 313 ≤ lastUnit serviceMask us := fun hsecond => h ⟨hsecond, hus⟩
      rw [parity, parity, if_neg hfirst]
      rfl
  · rw [hlast hus]
    exact iff_of_true rfl fun h => hus h.2

variable {fixedLength : Bool}

theorem encodeStuffing_keeps {b : Buffer} {units : List UInt8} {i : Nat}
    (h : encodeStuffing b fixedLength = some units) (hi : i < b.packet.length)
    (hne : i ≠ b.packet.length + 1 - b.lastDuSize) : units[i]? = b.packet[i]? := by
  have hsize : 2 ≤ (if fixedLength then 46 else 257) := by
    split <;> decide
  obtain ⟨hpacket, hleft, hlast⟩ := stuffingLoop_spec hsize (Nat.le_refl b.pLeft)
  have hlength := stuffingLoop_length hsize b
  rw [encodeStuffing] at h
  generalize stuffingLoop (if fixedLength then 46 else 257) b.pLeft b = c at *
  -- neither a stuffing unit nor a shorter one is there
  have hi' : i < c.packet.length := by
    rw [hpacket, List.length_append]
    omega
  have hne' : i ≠ c.packet.length + 1 - c.lastDuSize := by
    rw [hlast]
    by_cases hroom : (if fixedLength then 46 else 257) ≤ b.pLeft
    · rw [if_pos hroom]
      have hdiv := Nat.div_pos hroom (Nat.lt_of_lt_of_le Nat.zero_lt_two hsize)
      have hmul := Nat.le_mul_of_pos_right (if fixedLength then 46 else 257) hdiv
      have hmod := Nat.div_add_mod b.pLeft (if fixedLength then 46 else 257)
      omega
    · rw [if_neg hroom]
      have hmod := Nat.mod_eq_of_lt (Nat.not_le.mp hroom)
      omega
  have hkept : c.packet[i]? = b.packet[i]? := by
    rw [hpacket, List.getElem?_append_left hi]
  have hset : ∀ (v : UInt8) (tail : List UInt8),
      (c.packet.set (c.packet.length + 1 - c.lastDuSize) v ++ tail)[i]? = b.packet[i]? := by
    intro v tail
    rw [List.getElem?_append_left (by rwa [List.length_set]), List.getElem?_set_ne hne'.symm, hkept]
  split at h
  · cases h
    exact hkept
  split at h
  · cases h
  split at h
  · cases h
    rw [List.getElem?_append_left hi', hkept]
  split at h
  · cases h
  split at h
  · rename_i hmax
    cases h
    have hlong := hset 254 [0]
    rwa [hmax] at hlong
  · cases h
    exact hset _ [0xff]

theorem lofp_zero (lastLine : Nat) : lofp 0 lastLine = some (parity lastLine) := rfl

/-- The unit of a Teletext line without a number which was laid behind others. -/
theorem teletext_unit {f : FrameData} {c : Place} {p : Span} {s : Sliced} {unit : List UInt8}
    (hunit : UnitOf fixedLength f c p s unit) (hmask : s.id &&& f.serviceMask ≠ 0)
    (hteletext : IsTeletext s.id) (hline : s.line = 0) :
    unit.length = 46 ∧ unit[0]? = some 0x02 ∧ unit[2]? = some (parity p.lastLine) ∧
      (p.next fixedLength f.serviceMask s).lastDuSize = 46 := by
  have hservice := teletext_service hteletext
  have hid : s.id ≠ vbiSlicedVbi625 := by
    rintro hraw
    rw [hraw] at hteletext
    exact absurd hteletext (by decide)
  have hsize : teletextB.size fixedLength = 46 := by
    cases fixedLength <;> rfl
  have hnext : p.next fixedLength f.serviceMask s = ⟨p.lastLine, 46⟩ := by
    rw [Span.next, if_neg hid, if_neg hmask, hline, hservice, Option.elim_some, hsize]
    rfl
  have hcoded := hunit.sliced hid hmask
  rw [slicedUnit, hservice, Option.bind_some, hnext, hline, lofp_zero, Option.map_some] at hcoded
  have hlength := dataUnit_length hservice fixedLength (parity p.lastLine) s.data
  rw [Option.some.inj hcoded, hsize] at hlength
  rw [hnext]
  refine ⟨hlength, ?_, ?_, rfl⟩
  · rw [← Option.some.inj hcoded]
    rfl
  · rw [← Option.some.inj hcoded]
    rfl

/-- The data unit of a Teletext line without a number is assigned to the field of the last unit
with a number, or to the first field if there is none, unless a raw line divides the frame
behind a unit of the second field. -/
theorem undefined_line_parity {o : Options} {mx : State} {f : FrameData} {g : Generated}
    {packet : List UInt8} {before after : List Sliced} {s : Sliced}
    (h : generatePesPacket o mx f = .ok g) (hp : g.packet = .ok packet)
    (hf : f.sliced = before ++ s :: after) (hcoded : g.rest <:+ after)
    (hmask : s.id &&& f.serviceMask ≠ 0) (hteletext : IsTeletext s.id) (hline : s.line = 0) :
    ∃ i, unitOffset o mx f before = some i ∧ packet[i]? = some 0x02 ∧
      (packet[i + 2]? = some (parity (lastUnit f.serviceMask before)) ↔
        ¬ Divided f.serviceMask before) := by
  rcases generatePesPacket_cases h with rfl | ⟨-, e, he, hfinish⟩
  · cases hp
  obtain ⟨units, hunits, herr, -, hrest, rfl⟩ := finishPacket_ok hfinish hp
  obtain ⟨coded, bytes, part, c, q, hus, hlaid, hpacket, hlast⟩ :=
    generateLoop_laid he herr (List.forall_mem_nil _)
  obtain ⟨after, rfl⟩ := hcoded
  rw [List.nil_append, hf, ← List.cons_append, ← List.append_assoc, hrest] at hus
  rw [← List.append_cancel_right hus] at hlaid
  obtain ⟨d, p, xs, ys, hbefore, hbehind, rfl⟩ := hlaid.split
  cases hbehind with
  | @cons _ d' _ _ _ _ _ unit bytes placed coded' rest =>
  obtain ⟨hlength, hid, hparity, hsize⟩ := teletext_unit coded' hmask hteletext hline
  have hmax : 46 < o.size.max := by
    have hpos := o.size.pos
    have hdvd := o.size.dvd_min
    have hle := o.size.min_le_max
    omega
  have hroom := hbefore.length
  dsimp only at hroom
  -- where the units are in the buffer
  have hbuffer : e.buffer.packet = xs ++ (unit ++ (bytes ++ part)) := by
    rw [hpacket, List.nil_append, List.append_assoc, List.append_assoc]
  have hsizeLast : e.buffer.lastDuSize ≤ (bytes ++ part).length ∨
      (e.buffer.lastDuSize = 46 ∧ bytes ++ part = []) := by
    rw [List.length_append]
    rcases hlast with hle | ⟨hsame, rfl⟩
    · exact Or.inl (Nat.le_trans hle (Nat.le_add_left _ _))
    rw [hsame, List.append_nil]
    rcases rest.lastDuSize with hle | ⟨hsame', hnil⟩
    · exact Or.inl (Nat.le_trans hle (Nat.le_add_right _ _))
    · exact Or.inr ⟨hsame'.trans hsize, hnil⟩
  have htotal : e.buffer.packet.length = xs.length + (46 + (bytes ++ part).length) := by
    rw [hbuffer, List.length_append, List.length_append, hlength]
  have hkept : ∀ k, k < 46 → k ≠ 1 → units[xs.length + k]? = unit[k]? := by
    intro k hk hne
    rw [encodeStuffing_keeps hunits]
    · rw [hbuffer, List.getElem?_append_right (Nat.le_add_right _ _), Nat.add_sub_cancel_left,
        List.getElem?_append_left (by omega)]
    · dsimp only
      omega
    · dsimp only
      rcases hsizeLast with hle | ⟨hsame, hnil⟩
      · omega
      · rw [hnil, List.length_nil] at htotal
        omega
  have hheader : ∀ k, (pesPacketHeader (46 + e.buffer.packet.length +
      stuffingSize o.size.min (46 + e.buffer.packet.length)) f.pts o.dataIdentifier ++
      units)[o.size.max - d.room + k]? = units[xs.length + k]? := by
    intro k
    rw [List.getElem?_append_right]
    · rw [pesPacketHeader_length]
      congr 1
      omega
    · rw [pesPacketHeader_length]
      omega
  have hspan := hbefore.span
  refine ⟨o.size.max - d.room, ?_, ?_, ?_⟩
  · rw [unitOffset, hbefore.layOut, Option.map_some]
  · have hfirst := hheader 0
    rw [hkept 0 (by decide) (by decide), hid, Nat.add_zero] at hfirst
    exact hfirst
  · rw [hheader, hkept 2 (by decide) (by decide), hparity, Option.some.injEq, hspan]
    exact parity_span _ _ _

/-- All lines are coded, and this is a byte of the packet. -/
theorem exists_generated {o : Options} {mx : State} {f : FrameData} {i : Nat} {v : UInt8}
    (h : ((generatePesPacket o mx f).toOption.bind fun g =>
      if g.rest.isEmpty then g.packet.toOption.bind (·[i]?) else none) = some v) :
    ∃ g packet, generatePesPacket o mx f = .ok g ∧ g.packet = .ok packet ∧ g.rest = [] ∧
      packet[i]? = some v := by
  cases hg : generatePesPacket o mx f with
  | error e =>
    rw [hg] at h
    cases h
  | ok g =>
    rw [hg] at h
    change (if g.rest.isEmpty = true then _ else _) = _ at h
    split at h
    · rename_i hrest
      cases hp : g.packet with
      | error e =>
        rw [hp] at h
        cases h
      | ok packet =>
        rw [hp] at h
        exact ⟨g, packet, rfl, hp, List.isEmpty_iff.mp hrest, h⟩
    · cases h

def teletextLine (line : Nat) : Sliced := ⟨vbiSlicedTeletextB, line, List.replicate 42 0⟩

def teletextFrame : FrameData :=
  ⟨[teletextLine 320, teletextLine 0], 0xffffffff, none, none, 0⟩

/-- Behind a Teletext line of the second field. -/
theorem undefined_line_parity_second : ∃ g packet,
    generatePesPacket (DvbMuxStreams.smallPackets 0) muxNew teletextFrame = .ok g ∧
    g.packet = .ok packet ∧ packet[94]? = some 0xc0 := by
  obtain ⟨g, packet, hg, hp, hrest, -⟩ := @exists_generated (DvbMuxStreams.smallPackets 0) muxNew
    teletextFrame 92 0x02 (by decide +kernel)
  refine ⟨g, packet, hg, hp, ?_⟩
  obtain ⟨i, hoffset, -, hparity⟩ := @undefined_line_parity _ _ _ _ _ [teletextLine 320] []
    (teletextLine 0) hg hp rfl (hrest ▸ List.nil_suffix) (by decide) (Or.inr (Or.inr rfl)) rfl
  have hi : unitOffset (DvbMuxStreams.smallPackets 0) muxNew teletextFrame [teletextLine 320] =
      some 92 := by
    decide +kernel
  rw [hi] at hoffset
  cases hoffset
  refine hparity.mpr ?_
  rintro ⟨-, x, r, y, hus, hr, -⟩
  have hmem : r ∈ [teletextLine 320] := by
    rw [hus]
    exact List.mem_append_right x List.mem_cons_self
  rw [List.mem_singleton.mp hmem] at hr
  exact absurd hr (by decide)

def rawPar : SamplingPar where
  scanning := 625
  samplingFormat := vbiPixfmtYuv420
  samplingRate := 13500000
  bytesPerLine := 4
  offset := 132
  start field := if field then 320 else 0
  count field := if field then 1 else 0
  interlaced := false
  synchronous := true

def dividedFrame : FrameData where
  sliced := [⟨vbiSlicedVbi625, 320, []⟩, teletextLine 0]
  serviceMask := 0xffffffff
  raw := some fun _ => 0
  sp := some rawPar
  pts := 0

/-- The Teletext line behind the raw line is assigned to the first field. -/
theorem undefined_line_parity_fails :
    dividedFrame.validSp = true ∧
    ¬ ∀ (o : Options) (mx : State) (f : FrameData) (g : Generated) (packet : List UInt8)
      (before after : List Sliced) (s : Sliced), generatePesPacket o mx f = .ok g →
      g.packet = .ok packet → f.sliced = before ++ s :: after → g.rest <:+ after →
      s.id &&& f.serviceMask ≠ 0 → IsTeletext s.id → s.line = 0 →
      ∃ i, unitOffset o mx f before = some i ∧ packet[i]? = some 0x02 ∧
        packet[i + 2]? = some (parity (lastUnit f.serviceMask before)) := by
  refine ⟨by decide +kernel, fun h => ?_⟩
  obtain ⟨g, packet, hg, hp, hrest, hbyte⟩ := @exists_generated (DvbMuxStreams.smallPackets 0)
    muxNew dividedFrame 94 0xe0 (by decide +kernel)
  obtain ⟨i, hoffset, -, hparity⟩ := h _ _ _ _ _ [⟨vbiSlicedVbi625, 320, []⟩] []
    (teletextLine 0) hg hp rfl (hrest ▸ List.nil_suffix) (by decide) (Or.inr (Or.inr rfl)) rfl
  have hi : unitOffset (DvbMuxStreams.smallPackets 0) muxNew dividedFrame
      [⟨vbiSlicedVbi625, 320, []⟩] = some 92 := by
    decide +kernel
  rw [hi] at hoffset
  cases hoffset
  rw [hbyte] at hparity
  exact absurd hparity (by decide)

end DvbMuxParity
