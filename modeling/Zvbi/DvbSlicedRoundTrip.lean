import Mathlib.Algebra.Ring.Nat
import Zvbi.DvbMultiplex

/-!
# From sliced lines to data units and back

What `vbi_dvb_multiplex_sliced()` stores is read by `vbi_dvb_demultiplex_sliced()`, in one
call or in several, each with room for some of the lines. The reader sees the field of a
line without a number only in relation to the unit before it.
-/

namespace DvbSlicedRoundTrip
open Hamming DvbMuxUnits DvbMux DvbMultiplex
open DvbFrame (Sliced Frame Refusal Address Slot lofpToLine lineAddress resetFrame
  extractDataUnits extractDataUnits_unit extractDataUnits_short vbiSlicedTeletextB vbiSlicedVps
  vbiSlicedCaption625F1 vbiSlicedWss625)

structure Demultiplexed where
  ok : Bool
  sliced : List Sliced
  rest : List UInt8

def vbiDvbDemultiplexSliced (maxLines : Nat) (buffer : List UInt8) : Demultiplexed :=
  if buffer.length < 2 then
    ⟨false, [], buffer⟩
  else
    let e := extractDataUnits (resetFrame : Frame maxLines) buffer
    ⟨e.refusal.isNone, e.frame.sliced, e.rest⟩

/-- Calls with room for so many lines, until the data is consumed. -/
def readAll : List Nat → List UInt8 → List Sliced × List UInt8
  | [], buffer => ([], buffer)
  | maxLines :: more, buffer =>
    if buffer = [] then ([], [])
    else
      let d := vbiDvbDemultiplexSliced maxLines buffer
      let r := readAll more d.rest
      (d.sliced ++ r.1, r.2)

theorem vbiRev8_rev8 (b : UInt8) : vbiRev8 (vbiRev8 b) = b := by
  have htwice : ∀ n < 256, reverseBits (reverseBits n) = n := by decide +kernel
  apply UInt8.toNat_inj.mp
  rw [vbiRev8_toNat, vbiRev8_toNat, htwice _ b.toNat_lt]

theorem vbiRev8_wss (b : UInt8) : vbiRev8 (vbiRev8 b ||| 3) = b ||| 0xc0 := by
  have hunused : ∀ n < 256, reverseBits (reverseBits n ||| 3) = n ||| 0xc0 := by decide +kernel
  apply UInt8.toNat_inj.mp
  rw [vbiRev8_toNat, UInt8.toNat_or, vbiRev8_toNat, UInt8.toNat_or]
  exact hunused _ b.toNat_lt

theorem map_rev8 (data : List UInt8) : (data.map vbiRev8).map vbiRev8 = data := by
  rw [List.map_map]
  exact List.map_id'' vbiRev8_rev8 data

/-- A line as it is read. The reader has one id for each service, and the unused bits of
WSS are set. -/
def normal (s : Sliced) : Sliced :=
  if IsTeletext s.id then ⟨vbiSlicedTeletextB, s.line, dataBytes 42 s.data⟩
  else if s.id = vbiSlicedVps then ⟨vbiSlicedVps, s.line, dataBytes 13 s.data⟩
  else if s.id = vbiSlicedWss625 then
    ⟨vbiSlicedWss625, s.line, [s.data.getD 0 0, s.data.getD 1 0 ||| 0xc0]⟩
  else ⟨vbiSlicedCaption625F1, s.line, dataBytes 2 s.data⟩

def nextLine (lastLine : Nat) (s : Sliced) : Nat := if 0 < s.line then s.line else lastLine

def field (line : Nat) : Nat := if 313 ≤ line then 1 else 0

/-- The frame of the reader contains lines up to this number. -/
structure InStep {capacity : Nat} (lastLine : Nat) (f : Frame capacity) : Prop where
  lastFrameLine : f.lastFrameLine ≤ lastLine
  lastField : f.lastDataUnitId ≠ 0 → f.lastField = field lastLine

theorem inStep_reset (lastLine : Nat) {capacity : Nat} :
    InStep lastLine (resetFrame : Frame capacity) :=
  ⟨Nat.zero_le _, fun h => absurd rfl h⟩

structure InTurn (lastLine : Nat) (s : Sliced) (v : Service) : Prop where
  service : service s.id = some v
  legal : v.legal s.line = true
  ascends : s.line = 0 ∨ lastLine < s.line

theorem lofpToLine_first : ∀ n : Fin 32, 0 < n.val →
    (lofpToLine (0xe0 + UInt8.ofNat n) .system625).frameLine = n ∧
      (lofpToLine (0xe0 + UInt8.ofNat n) .system625).field = 0 ∧
      (lofpToLine (0xe0 + UInt8.ofNat n) .system625).fieldLine = n := by
  decide +kernel

theorem lofpToLine_second : ∀ n : Fin 32, 0 < n.val →
    (lofpToLine (0xc0 + UInt8.ofNat n) .system625).frameLine = 313 + n ∧
      (lofpToLine (0xc0 + UInt8.ofNat n) .system625).field = 1 ∧
      (lofpToLine (0xc0 + UInt8.ofNat n) .system625).fieldLine = n := by
  decide +kernel

/-- What the reader makes of the line_offset and field_parity. -/
theorem lofpToLine_lofp {line lastLine : Nat} {l : UInt8} (h : lofp line lastLine = some l)
    (hline : line = 0 ∨ (0 < line ∧ line < 32) ∨ (313 < line ∧ line < 345)) :
    (lofpToLine l .system625).frameLine = line ∧
      (lofpToLine l .system625).field = field (if 0 < line then line else lastLine) ∧
      (lofpToLine l .system625).fieldLine = if 313 ≤ line then line - 313 else line := by
  rw [lofp] at h
  rcases hline with rfl | ⟨hpos, hfirst⟩ | ⟨hlow, hhigh⟩
  · rw [if_pos rfl] at h
    cases h
    rw [if_neg (Nat.lt_irrefl 0), field]
    split
    · exact ⟨rfl, rfl, rfl⟩
    · exact ⟨rfl, rfl, rfl⟩
  · rw [if_neg (Nat.ne_of_gt hpos), if_pos hfirst] at h
    cases h
    obtain ⟨hframe, hfield, hoffset⟩ := lofpToLine_first ⟨line, hfirst⟩ hpos
    rw [if_pos hpos, field, if_neg (by omega), if_neg (by omega)]
    exact ⟨hframe, hfield, hoffset⟩
  · rw [if_neg (by omega), if_neg (by omega), if_neg (by omega), if_pos (by omega)] at h
    obtain rfl := Option.some.inj h
    obtain ⟨hframe, hfield, hoffset⟩ :=
      lofpToLine_second ⟨line - 313, by omega⟩ (by dsimp only; omega)
    rw [if_pos (by omega), field, if_pos (by omega), if_pos (by omega)]
    refine ⟨hframe.trans ?_, hfield, hoffset⟩
    dsimp only
    omega

variable {v : Service} {lines : List Sliced} {us units : List (UInt8 × List UInt8)}

/-- The slot of a line in turn, if there is room for another one. -/
theorem lineAddress_inTurn {capacity lastLine : Nat} {f : Frame capacity} {s : Sliced} {l : UInt8}
    (hf : InStep lastLine f) (hs : InTurn lastLine s v)
    (hl : lofp s.line (nextLine lastLine s) = some l) :
    (¬ f.sliced.length < capacity →
      lineAddress f l .system625 = .error (.failed .slicedBufferOverflow)) ∧
    (f.sliced.length < capacity → ∃ slot : Slot capacity,
      lineAddress f l .system625 = .ok slot ∧ slot.frame.sliced = f.sliced ∧
        slot.address = lofpToLine l .system625 ∧ slot.frame.lastFrameLine ≤ nextLine lastLine s ∧
        slot.frame.lastField = field (nextLine lastLine s)) := by
  obtain ⟨hframe, hfield, -⟩ := lofpToLine_lofp hl (legal_line hs.service hs.legal)
  have hfield' : (lofpToLine l .system625).field = field (nextLine lastLine s) := by
    rw [hfield, nextLine]
    split <;> rfl
  refine ⟨fun hroom => ?_, fun hroom => ?_⟩
  · rw [lineAddress, dif_neg hroom]
  rw [lineAddress, dif_pos hroom]
  dsimp only
  rw [hframe]
  rcases hs.ascends with hzero | hlater
  · rw [if_neg (by omega)]
    have hnext : nextLine lastLine s = lastLine := by
      rw [nextLine, if_neg (by omega)]
    have hsame : f.lastDataUnitId ≠ 0 → (lofpToLine l .system625).field = f.lastField := by
      intro hid
      rw [hfield', hnext, hf.lastField hid]
    rw [if_neg (fun h => h.2.1 (hsame h.1)), if_neg (fun h => by
      have heq := hsame h.1
      omega)]
    refine ⟨_, rfl, rfl, rfl, ?_, hfield'⟩
    rw [hnext]
    exact hf.lastFrameLine
  · have hnext : nextLine lastLine s = s.line := by
      rw [nextLine, if_pos (by omega)]
    have hlast := hf.lastFrameLine
    rw [if_pos (by omega), if_neg (by omega)]
    exact ⟨_, rfl, rfl, rfl, Nat.le_of_eq hnext.symm, hfield'⟩

structure Reads {capacity : Nat} (lastLine : Nat) (f : Frame capacity) (s : Sliced) (id : UInt8)
    (r : Frame capacity × Option Refusal) : Prop where
  full : ¬ f.sliced.length < capacity → r = (f, some (.failed .slicedBufferOverflow))
  stored : f.sliced.length < capacity → ∃ g, r = (g, none) ∧ g.sliced = f.sliced ++ [normal s] ∧
    InStep (nextLine lastLine s) { g with lastDataUnitId := id }

variable {data : List UInt8} {i : Insertion}

theorem storeLine_reads {capacity lastLine : Nat} {f : Frame capacity} {s : Sliced} {l : UInt8}
    (hf : InStep lastLine f) (hs : InTurn lastLine s v)
    (hl : lofp s.line (nextLine lastLine s) = some l) {w : DvbFrame.Service}
    (hsystem : w.system = .system625) (hlegal : w.legal (lofpToLine l .system625) = true)
    (hnormal : normal s = ⟨w.id (field (nextLine lastLine s)), s.line, w.payload data⟩)
    (id : UInt8) : Reads lastLine f s id (DvbFrame.storeLine w f (l :: data)) := by
  obtain ⟨hfull, hstored⟩ := lineAddress_inTurn hf hs hl
  obtain ⟨hframe, hfield, -⟩ := lofpToLine_lofp hl (legal_line hs.service hs.legal)
  have hfield' : (lofpToLine l .system625).field = field (nextLine lastLine s) := by
    rw [hfield, nextLine]
    split <;> rfl
  refine ⟨fun hroom => ?_, fun hroom => ?_⟩
  · rw [DvbFrame.storeLine, List.getD_cons_zero, hsystem, hfull hroom]
  · obtain ⟨slot, hslot, hsliced, haddress, hlast, hlastField⟩ := hstored hroom
    rw [DvbFrame.storeLine, List.getD_cons_zero, hsystem, hslot]
    dsimp only
    rw [haddress, if_pos hlegal]
    refine ⟨_, rfl, ?_, hlast, fun _ => hlastField⟩
    rw [DvbFrame.Slot.store_sliced, hsliced, haddress, hframe, hfield', hnormal]
    rfl

theorem read_reversed {n : Nat} (h : data.length = n) (more : List UInt8) :
    ((data.map vbiRev8 ++ more).take n).map vbiRev8 = data := by
  rw [← h, ← @List.length_map _ _ data vbiRev8, List.take_left, map_rev8]

section
variable {capacity lastLine : Nat} {f : Frame capacity} {s : Sliced} {l : UInt8}

theorem teletext_reads (hf : InStep lastLine f) (hs : InTurn lastLine s teletextB)
    (hid : IsTeletext s.id) (hl : lofp s.line (nextLine lastLine s) = some l)
    (more : List UInt8) : Reads lastLine f s 0x02
      (DvbFrame.teletextUnit f (l :: 0xe4 :: ((dataBytes 42 s.data).map vbiRev8 ++ more))) := by
  have hlength : ¬ (l :: 0xe4 :: ((dataBytes 42 s.data).map vbiRev8 ++ more)).length <
      DvbFrame.ebuTeletext.length := by
    change ¬ _ < 1 + 1 + 42
    rw [List.length_cons, List.length_cons, List.length_append, List.length_map,
      dataBytes_length]
    omega
  rw [DvbFrame.teletextUnit, if_neg hlength, if_neg (fun h => h rfl)]
  refine storeLine_reads hf hs hl rfl ?_ ?_ _
  · have hline := teletextB_legal hs.legal
    obtain ⟨-, -, hoffset⟩ := lofpToLine_lofp hl (by omega)
    simp only [DvbFrame.ebuTeletext, hoffset, Bool.or_eq_true, Bool.and_eq_true,
      decide_eq_true_eq]
    split <;> omega
  · rw [normal, if_pos hid]
    change _ = Sliced.mk _ _ (((((dataBytes 42 s.data).map vbiRev8 ++ more)).take 42).map vbiRev8)
    rw [read_reversed (dataBytes_length 42 s.data)]
    rfl

theorem vps_reads (hf : InStep lastLine f) (hs : InTurn lastLine s DvbMuxUnits.vps)
    (hid : s.id = vbiSlicedVps) (hl : lofp s.line (nextLine lastLine s) = some l)
    (more : List UInt8) : Reads lastLine f s 0xc3
      (DvbFrame.lineUnit DvbFrame.vps f (l :: (dataBytes 13 s.data ++ more))) := by
  have hsixteen : s.line = 16 := of_decide_eq_true hs.legal
  obtain ⟨hframe, -, -⟩ := lofpToLine_lofp hl (legal_line hs.service hs.legal)
  have hlength : ¬ (l :: (dataBytes 13 s.data ++ more)).length < DvbFrame.vps.length := by
    change ¬ _ < 1 + 13
    rw [List.length_cons, List.length_append, dataBytes_length]
    omega
  rw [DvbFrame.lineUnit, if_neg hlength]
  refine storeLine_reads hf hs hl rfl (decide_eq_true (hframe.trans hsixteen)) ?_ _
  have hfield : field (nextLine lastLine s) = 0 := by
    rw [nextLine, hsixteen]
    rfl
  rw [normal, hid, if_neg (by decide), if_pos rfl, hfield]
  change _ = Sliced.mk _ _ ((dataBytes 13 s.data ++ more).take 13)
  rw [List.take_left' (dataBytes_length 13 s.data)]
  rfl

theorem wss_reads (hf : InStep lastLine f) (hs : InTurn lastLine s wss625)
    (hid : s.id = vbiSlicedWss625) (hl : lofp s.line (nextLine lastLine s) = some l)
    (more : List UInt8) : Reads lastLine f s 0xc4
      (DvbFrame.lineUnit DvbFrame.wss f
        (l :: vbiRev8 (s.data.getD 0 0) :: (vbiRev8 (s.data.getD 1 0) ||| 3) :: more)) := by
  have hline : s.line = 23 := of_decide_eq_true hs.legal
  obtain ⟨hframe, -, -⟩ := lofpToLine_lofp hl (legal_line hs.service hs.legal)
  have hlength : ¬ (l :: vbiRev8 (s.data.getD 0 0) :: (vbiRev8 (s.data.getD 1 0) ||| 3) ::
      more).length < DvbFrame.wss.length := by
    change ¬ _ < 1 + 2
    rw [List.length_cons, List.length_cons, List.length_cons]
    omega
  rw [DvbFrame.lineUnit, if_neg hlength]
  refine storeLine_reads hf hs hl rfl (decide_eq_true (hframe.trans hline)) ?_ _
  rw [normal, hid, if_neg (by decide), if_neg (by decide), if_pos rfl]
  change _ = Sliced.mk _ _ [vbiRev8 (vbiRev8 (s.data.getD 0 0)),
    vbiRev8 (vbiRev8 (s.data.getD 1 0) ||| 3)]
  rw [vbiRev8_rev8, vbiRev8_wss]
  rfl

theorem caption_reads (hf : InStep lastLine f) (hs : InTurn lastLine s caption625)
    (hid : s.id = vbiSlicedCaption625 ∨ s.id = vbiSlicedCaption625F1)
    (hl : lofp s.line (nextLine lastLine s) = some l)
    (more : List UInt8) : Reads lastLine f s 0xc5
      (DvbFrame.lineUnit DvbFrame.closedCaption f
        (l :: ((dataBytes 2 s.data).map vbiRev8 ++ more))) := by
  have hline : s.line = 21 := of_decide_eq_true hs.legal
  obtain ⟨hframe, -, -⟩ := lofpToLine_lofp hl (legal_line hs.service hs.legal)
  have hlength : ¬ (l :: ((dataBytes 2 s.data).map vbiRev8 ++ more)).length <
      DvbFrame.closedCaption.length := by
    change ¬ _ < 1 + 2
    rw [List.length_cons, List.length_append, List.length_map, dataBytes_length]
    omega
  rw [DvbFrame.lineUnit, if_neg hlength]
  refine storeLine_reads hf hs hl rfl (decide_eq_true (hframe.trans hline)) ?_ _
  have hfield : field (nextLine lastLine s) = 0 := by
    rw [nextLine, hline]
    rfl
  have hnormal : normal s = ⟨vbiSlicedCaption625F1, s.line, dataBytes 2 s.data⟩ := by
    rw [normal]
    rcases hid with hid | hid
    · rw [hid]
      rfl
    · rw [hid]
      rfl
  rw [hnormal, hfield]
  change _ = Sliced.mk _ _ (((dataBytes 2 s.data).map vbiRev8 ++ more).take 2 |>.map vbiRev8)
  rw [read_reversed (dataBytes_length 2 s.data)]
  rfl

theorem dataUnit_reads (hf : InStep lastLine f) (hs : InTurn lastLine s v)
    (hl : lofp s.line (nextLine lastLine s) = some l) (more : List UInt8) :
    Reads lastLine f s v.unitId
      (DvbFrame.dataUnit f v.unitId (l :: (v.payload s.data ++ more))) := by
  rcases service_cases hs.service with ⟨hid, rfl⟩ | ⟨hid, rfl⟩ | ⟨hid, rfl⟩ | ⟨hid, rfl⟩
  · exact teletext_reads hf hs hid hl more
  · exact vps_reads hf hs hid hl more
  · exact wss_reads hf hs hid hl more
  · exact caption_reads hf hs hid hl more

end

inductive Codes : Nat → List Sliced → List (UInt8 × List UInt8) → Prop
  | nil (lastLine : Nat) : Codes lastLine [] []
  | cons {lastLine : Nat} {s : Sliced} {v : Service} {l : UInt8} {lines : List Sliced}
      {units : List (UInt8 × List UInt8)} (turn : InTurn lastLine s v)
      (lineOffset : lofp s.line (nextLine lastLine s) = some l) (more : List UInt8)
      (rest : Codes (nextLine lastLine s) lines units) :
      Codes lastLine (s :: lines) ((v.unitId, l :: (v.payload s.data ++ more)) :: units)

/-- A byte appended to the last data unit is not part of its payload. -/
theorem Codes.append_last {lastLine : Nat} {id : UInt8}
    (h : Codes lastLine lines (us ++ [(id, data)])) (b : UInt8) :
    Codes lastLine lines (us ++ [(id, data ++ [b])]) := by
  induction us generalizing lastLine lines with
  | nil =>
    cases h with
    | @cons _ s v l _ _ turn lineOffset more rest =>
      cases rest
      have hdata : (l :: (v.payload s.data ++ more)) ++ [b] =
          l :: (v.payload s.data ++ (more ++ [b])) := by
        rw [List.cons_append, List.append_assoc]
      rw [List.nil_append, hdata]
      exact .cons turn lineOffset _ (.nil _)
  | cons u us ih =>
    cases h with
    | cons turn lineOffset more rest => exact .cons turn lineOffset more (ih rest)

theorem Codes.enlarged {lastLine : Nat} {us' : List (UInt8 × List UInt8)}
    (h : Codes lastLine lines us) (he : Enlarged us us') : Codes lastLine lines us' := by
  cases he with
  | same => exact h
  | last us id data => exact h.append_last 0xff

theorem Codes.length {lastLine : Nat} (h : Codes lastLine lines us) : lines.length = us.length := by
  induction h with
  | nil => rfl
  | cons turn lineOffset more rest ih => rw [List.length_cons, List.length_cons, ih]

def selected (serviceMask : Nat) (s : Sliced) : Bool := s.id &&& serviceMask ≠ 0

/-- What is stored behind the data units `us`, and what is left. -/
structure Stores (serviceMask : Nat) (fixedLength : Bool) (lastLine : Nat) (b : Buffer)
    (us : List (UInt8 × List UInt8)) (i : Insertion) (coded : List Sliced)
    (units : List (UInt8 × List UInt8)) : Prop where
  codes : Codes lastLine (coded.filter (selected serviceMask)) units
  holds : Holds i.buffer (us ++ units)
  small : ∀ u ∈ units, u.2.length + 2 ≤ 46
  room : i.buffer.pLeft + (units.flatMap unitBytes).length = b.pLeft
  whole : fixedLength = true → 46 ∣ b.pLeft → 46 ∣ i.buffer.pLeft

theorem unitBytes_dataUnit {id : Nat} (h : DvbMuxUnits.service id = some v) (fixedLength : Bool)
    (l : UInt8) (data : List UInt8) : ∃ more,
      v.dataUnit (v.size fixedLength) l data = unitBytes (v.unitId, l :: (v.payload data ++ more)) ∧
        (l :: (v.payload data ++ more)).length + 2 = v.size fixedLength := by
  have hlength := dataUnit_length h fixedLength l data
  rw [DvbMuxUnits.Service.dataUnit, List.length_cons, List.length_cons] at hlength
  refine ⟨List.replicate (v.size fixedLength - 3 - (v.payload data).length) 0xff, ?_, hlength⟩
  rw [unitBytes, DvbMuxUnits.Service.dataUnit]
  dsimp only
  rw [@Nat.eq_sub_of_add_eq _ 2 _ hlength]

variable {b : Buffer} {fill : List (UInt8 × List UInt8)} {coded : List Sliced} {serviceMask : Nat}

theorem insertLoop_stores (serviceMask : Nat) (fixedLength : Bool) (lastLine : Nat) (h : Holds b us)
    (sliced : List Sliced) (hi : insertLoop serviceMask fixedLength lastLine b sliced = i) :
    ∃ coded units, sliced = coded ++ i.rest ∧
      Stores serviceMask fixedLength lastLine b us i coded units := by
  -- the loop stops at the first line
  have hstop : ∀ (lastLine : Nat) {b : Buffer} {us : List (UInt8 × List UInt8)}, Holds b us →
      ∀ (sliced : List Sliced) (err : Option Err), ∃ coded units,
        sliced = coded ++ (Insertion.mk b sliced err).rest ∧
          Stores serviceMask fixedLength lastLine b us ⟨b, sliced, err⟩ coded units := by
    intro lastLine b us h sliced err
    refine ⟨[], [], rfl, .nil _, ?_, List.forall_mem_nil _, rfl, fun _ hdvd => hdvd⟩
    rw [List.append_nil]
    exact h
  induction sliced generalizing lastLine b us with
  | nil =>
    subst hi
    exact hstop lastLine h [] none
  | cons s sliced ih =>
    rw [insertLoop] at hi
    by_cases hmask : s.id &&& serviceMask = 0
    · rw [if_pos hmask] at hi
      obtain ⟨coded, units, rfl, hstores⟩ := ih lastLine h hi
      have hskip : (s :: coded).filter (selected serviceMask) =
          coded.filter (selected serviceMask) := by
        rw [List.filter_cons_of_neg (by simpa [selected] using hmask)]
      exact ⟨s :: coded, units, rfl, hskip ▸ hstores.codes, hstores.holds, hstores.small,
        hstores.room, hstores.whole⟩
    rw [if_neg hmask] at hi
    by_cases horder : 0 < s.line ∧ s.line ≤ lastLine
    · rw [if_pos horder] at hi
      subst hi
      exact hstop lastLine h _ _
    rw [if_neg horder] at hi
    dsimp only at hi
    split at hi
    · subst hi
      exact hstop lastLine h _ _
    rename_i v hv
    by_cases hlegal : v.legal s.line = false
    · rw [if_pos hlegal] at hi
      subst hi
      exact hstop lastLine h _ _
    rw [if_neg hlegal] at hi
    by_cases hroom : b.pLeft < v.size fixedLength
    · rw [if_pos hroom] at hi
      subst hi
      exact hstop lastLine h _ _
    rw [if_neg hroom] at hi
    split at hi
    · subst hi
      exact hstop lastLine h _ _
    rename_i l hl
    have hturn : InTurn lastLine s v := ⟨hv, Bool.eq_true_of_not_eq_false hlegal, by omega⟩
    obtain ⟨more, hunit, hlength⟩ := unitBytes_dataUnit hv fixedLength l s.data
    obtain ⟨-, hsize, hfixed⟩ := service_size hv fixedLength
    have hbytes := unitBytes_length (v.unitId, l :: (v.payload s.data ++ more))
    rw [hunit] at hi
    obtain ⟨coded, units, rfl, hstores⟩ := ih (nextLine lastLine s)
      (@Holds.store _ _ h (v.unitId, l :: (v.payload s.data ++ more)) (by
        dsimp only
        omega)) hi
    have hkeep : (s :: coded).filter (selected serviceMask) =
        s :: coded.filter (selected serviceMask) := by
      rw [List.filter_cons_of_pos (by simpa [selected] using hmask)]
    have hcodes := Codes.cons hturn hl more hstores.codes
    have hholds := hstores.holds
    have hrest := hstores.room
    have hwhole := hstores.whole
    rw [List.append_assoc, List.singleton_append] at hholds
    rw [Buffer.store_pLeft, hbytes] at hrest hwhole
    dsimp only at hrest hwhole
    refine ⟨s :: coded, _, rfl, hkeep ▸ hcodes, hholds, ?_, ?_, fun hf hdvd => ?_⟩
    · rw [List.forall_mem_cons]
      exact ⟨Nat.le_trans (Nat.le_of_eq hlength) hsize, hstores.small⟩
    · rw [List.flatMap_cons, List.length_append, hbytes]
      dsimp only
      omega
    · refine hwhole hf (Nat.dvd_sub hdvd ?_)
      rw [hlength, hfixed hf]

theorem extract_fill {capacity : Nat} (f : Frame capacity) (hfill : ∀ u ∈ fill, u.1 = 0xff)
    (hsized : ∀ u ∈ fill, u.2.length < 256) :
    (extractDataUnits f (fill.flatMap unitBytes)).frame.sliced = f.sliced ∧
      (extractDataUnits f (fill.flatMap unitBytes)).rest = [] := by
  induction fill generalizing f with
  | nil => exact ⟨rfl, rfl⟩
  | cons u fill ih =>
    rw [List.forall_mem_cons] at hfill hsized
    rw [List.flatMap_cons, unitBytes, List.cons_append, List.cons_append]
    rcases List.eq_nil_or_concat (u.2 ++ fill.flatMap unitBytes) with hnil | ⟨_, _, hcons⟩
    · rw [hnil, @extractDataUnits_short _ f [u.1, UInt8.ofNat u.2.length] (Nat.lt_succ_self 2)]
      exact ⟨rfl, rfl⟩
    have hlength : (UInt8.ofNat u.2.length).toNat = u.2.length := by
      rw [UInt8.toNat_ofNat']
      exact Nat.mod_eq_of_lt hsized.1
    have hunit : DvbFrame.dataUnit f u.1 u.2 = (f, none) := by
      rw [hfill.1]
      rfl
    rw [extractDataUnits_unit f _ _ (by rw [hcons]; simp), hlength,
      if_neg (by rw [List.length_append]; omega), List.take_left, List.drop_left, hunit]
    exact ih { f with lastDataUnitId := u.1 } hfill.2 hsized.2

/-- The lines are read in order, as many as there is room for. The data unit of the next one
is not touched. -/
theorem extract_codes {capacity lastLine : Nat} {f : Frame capacity}
    (h : Codes lastLine lines units) (hf : InStep lastLine f) (hfill : ∀ u ∈ fill, u.1 = 0xff)
    (hsized : ∀ u ∈ units ++ fill, u.2.length < 256) :
    (extractDataUnits f ((units ++ fill).flatMap unitBytes)).frame.sliced =
        f.sliced ++ (lines.take (capacity - f.sliced.length)).map normal ∧
      (extractDataUnits f ((units ++ fill).flatMap unitBytes)).rest =
        if lines.length ≤ capacity - f.sliced.length then []
        else (units.drop (capacity - f.sliced.length) ++ fill).flatMap unitBytes := by
  induction h generalizing f with
  | nil lastLine =>
    obtain ⟨hlines, hrest⟩ := extract_fill f hfill (by simpa using hsized)
    rw [List.nil_append, hlines, hrest, List.take_nil, List.map_nil, List.append_nil,
      List.length_nil, if_pos (Nat.zero_le _)]
    exact ⟨rfl, rfl⟩
  | @cons lastLine s v l lines units turn lineOffset more rest ih =>
    rw [List.cons_append, List.forall_mem_cons] at hsized
    obtain ⟨hsize, hsized⟩ := hsized
    dsimp only at hsize
    have hreads := dataUnit_reads hf turn lineOffset more
    have hlength : (UInt8.ofNat (l :: (v.payload s.data ++ more)).length).toNat =
        (l :: (v.payload s.data ++ more)).length := by
      rw [UInt8.toNat_ofNat']
      exact Nat.mod_eq_of_lt hsize
    have hunit := @extractDataUnits_unit capacity f v.unitId
      (UInt8.ofNat (l :: (v.payload s.data ++ more)).length)
      (l :: (v.payload s.data ++ more) ++ (units ++ fill).flatMap unitBytes)
      (List.cons_ne_nil _ _)
    rw [hlength, if_neg (by rw [List.length_append]; omega), List.take_left,
      List.drop_left] at hunit
    rw [List.cons_append, List.flatMap_cons, unitBytes, List.cons_append, List.cons_append]
    dsimp only
    rw [hunit]
    by_cases hroom : f.sliced.length < capacity
    · have hleft : capacity - f.sliced.length = (capacity - (f.sliced.length + 1)) + 1 := by omega
      have hnext : ∀ g : Frame capacity, InStep (nextLine lastLine s) g →
          g.sliced = f.sliced ++ [normal s] →
          (extractDataUnits g ((units ++ fill).flatMap unitBytes)).frame.sliced =
            f.sliced ++ ((s :: lines).take (capacity - f.sliced.length)).map normal ∧
          (extractDataUnits g ((units ++ fill).flatMap unitBytes)).rest =
            if (s :: lines).length ≤ capacity - f.sliced.length then []
            else ((((v.unitId, l :: (v.payload s.data ++ more)) :: units).drop
              (capacity - f.sliced.length)) ++ fill).flatMap unitBytes := by
        intro g hstep hsliced
        obtain ⟨hlines, hrest⟩ := ih hstep hsized
        rw [hsliced, List.length_append, List.length_singleton] at hlines hrest
        rw [hlines, hrest, hleft, List.take_succ_cons, List.map_cons, List.append_assoc,
          List.drop_succ_cons, List.length_cons]
        refine ⟨rfl, ?_⟩
        by_cases hall : lines.length ≤ capacity - (f.sliced.length + 1)
        · rw [if_pos hall, if_pos (Nat.succ_le_succ hall)]
        · rw [if_neg hall, if_neg (fun h => hall (Nat.le_of_succ_le_succ h))]
      obtain ⟨g, hg, hsliced, hstep⟩ := hreads.stored hroom
      rw [hg]
      exact hnext _ hstep hsliced
    · rw [hreads.full hroom, Nat.sub_eq_zero_of_le (Nat.not_lt.mp hroom), List.take_zero,
        List.map_nil, List.append_nil, List.drop_zero, if_neg (by rw [List.length_cons]; omega)]
      exact ⟨rfl, rfl⟩

theorem Codes.drop {lastLine : Nat} (h : Codes lastLine lines units) (n : Nat) :
    ∃ lastLine', Codes lastLine' (lines.drop n) (units.drop n) := by
  induction h generalizing n with
  | nil lastLine => exact ⟨lastLine, by rw [List.drop_nil, List.drop_nil]; exact .nil lastLine⟩
  | cons turn lineOffset more rest ih =>
    cases n with
    | zero => exact ⟨_, .cons turn lineOffset more rest⟩
    | succ n => exact ih n

theorem readAll_nil (cs : List Nat) : readAll cs [] = ([], []) := by
  cases cs with
  | nil => rfl
  | cons c cs => exact if_pos rfl

/-- The lines arrive in order, and when there is room for all nothing is left. -/
theorem readAll_codes (cs : List Nat) {lastLine : Nat} {lines : List Sliced}
    {units fill : List (UInt8 × List UInt8)} (h : Codes lastLine lines units)
    (hfill : ∀ u ∈ fill, u.1 = 0xff) (hsized : ∀ u ∈ units ++ fill, u.2.length < 256) :
    (readAll cs ((units ++ fill).flatMap unitBytes)).1 = (lines.take cs.sum).map normal ∧
      (cs ≠ [] → lines.length ≤ cs.sum →
        (readAll cs ((units ++ fill).flatMap unitBytes)).2 = []) := by
  induction cs generalizing lastLine lines units with
  | nil => exact ⟨rfl, fun h => absurd rfl h⟩
  | cons c cs ih =>
    rw [List.sum_cons]
    rcases List.eq_nil_or_concat (units ++ fill) with hnil | ⟨us, u, hsnoc⟩
    · have hlines : lines = [] := by
        rw [← List.length_eq_zero_iff, h.length, (List.append_eq_nil_iff.mp hnil).1]
        rfl
      rw [hnil, hlines, List.flatMap_nil, readAll_nil, List.take_nil]
      exact ⟨rfl, fun _ _ => rfl⟩
    have hlong : 2 ≤ ((units ++ fill).flatMap unitBytes).length := by
      rw [hsnoc, List.concat_eq_append, List.flatMap_append, List.flatMap_singleton,
        List.length_append, unitBytes_length]
      omega
    obtain ⟨hread, hrest⟩ := extract_codes h (@inStep_reset lastLine c) hfill hsized
    have hempty : (resetFrame : Frame c).sliced = [] := rfl
    rw [hempty, List.length_nil, Nat.sub_zero] at hread hrest
    rw [List.nil_append] at hread
    generalize hbuffer : (units ++ fill).flatMap unitBytes = buffer at *
    have hne : buffer ≠ [] := List.ne_nil_of_length_pos (Nat.lt_of_lt_of_le Nat.zero_lt_two hlong)
    rw [readAll, if_neg hne, vbiDvbDemultiplexSliced, if_neg (Nat.not_lt.mpr hlong)]
    dsimp only
    rw [hread, hrest]
    by_cases hall : lines.length ≤ c
    · rw [if_pos hall, readAll_nil, List.append_nil, List.take_of_length_le hall,
        List.take_of_length_le (Nat.le_trans hall (Nat.le_add_right _ _))]
      exact ⟨rfl, fun _ _ => rfl⟩
    · rw [if_neg hall]
      obtain ⟨lastLine', hdrop⟩ := h.drop c
      have hsized' : ∀ u ∈ units.drop c ++ fill, u.2.length < 256 := by
        intro u hu
        rcases List.mem_append.mp hu with hu | hu
        · exact hsized u (List.mem_append_left _ (List.mem_of_mem_drop hu))
        · exact hsized u (List.mem_append_right _ hu)
      obtain ⟨hlines, hconsumed⟩ := ih hdrop hsized'
      refine ⟨?_, fun _ hsum => hconsumed ?_ ?_⟩
      · rw [hlines, ← List.map_append, List.take_add]
      · rintro rfl
        exact hall hsum
      · rw [List.length_drop]
        omega

/-- Stuffing does not fail behind the lines stored in a suitable buffer. -/
theorem Stores.stuffs {packetLeft dataIdentifier : Nat}
    (h : Stores serviceMask (fixedLengthFormat dataIdentifier) 0 ⟨[], packetLeft, 0⟩ [] i coded
      units)
    (hsuitable : unsuitable packetLeft dataIdentifier = false) :
    ∃ packet, encodeStuffing i.buffer (fixedLengthFormat dataIdentifier) = some packet := by
  obtain ⟨htwo, hdvd⟩ := suitable hsuitable
  rw [← Option.ne_none_iff_exists']
  cases hfixed : fixedLengthFormat dataIdentifier with
  | true => exact encodeStuffing_fixed (h.whole hfixed (hdvd hfixed))
  | false =>
    rw [Ne, encodeStuffing_eq_none]
    rintro ⟨hone, hlast⟩
    have hroom := h.room
    have hsize := h.holds.last
    rw [List.nil_append] at hsize
    rcases List.eq_nil_or_concat units with rfl | ⟨us, u, rfl⟩
    · rw [List.flatMap_nil, List.length_nil] at hroom
      dsimp only at hroom
      omega
    · rw [List.concat_eq_append, List.getLast?_append, List.getLast?_singleton] at hsize
      change _ = u.2.length + 2 at hsize
      omega

/-- The last data unit is too small to be split for the stuffing. -/
theorem Stores.last_small {lastLine : Nat} {fixedLength : Bool}
    (h : Stores serviceMask fixedLength lastLine b [] i coded units) :
    i.buffer.lastDuSize ≠ 257 := by
  have hsize := h.holds.last
  have hsmall := h.small
  rw [List.nil_append] at hsize
  rcases List.eq_nil_or_concat units with rfl | ⟨us, u, rfl⟩
  · rw [hsize]
    exact Nat.zero_ne_add_one 256
  · rw [List.concat_eq_append, List.forall_mem_append, List.forall_mem_singleton] at hsmall
    rw [List.concat_eq_append, List.getLast?_append, List.getLast?_singleton] at hsize
    change _ = u.2.length + 2 at hsize
    omega

/-- The lines stored come back, in one call or in several, and when all of them are read all
of the buffer is. -/
theorem vbiDvbMultiplexSliced_readAll (packetLeft : Nat) (sliced : List Sliced)
    (serviceMask dataIdentifier : Nat) (stuffing : Bool) :
    ∃ o coded, vbiDvbMultiplexSliced packetLeft sliced serviceMask dataIdentifier stuffing =
        .ok o ∧ sliced = coded ++ o.left ∧
      ∀ cs : List Nat,
        (readAll cs o.packet).1 =
          ((coded.filter (selected serviceMask)).take cs.sum).map normal ∧
        (cs ≠ [] → (coded.filter (selected serviceMask)).length ≤ cs.sum →
          (readAll cs o.packet).2 = []) := by
  rw [vbiDvbMultiplexSliced]
  cases hsuitable : unsuitable packetLeft dataIdentifier with
  | true =>
    exact ⟨_, [], if_pos rfl, rfl, fun cs =>
      readAll_codes cs (.nil 0) (List.forall_mem_nil _) (List.forall_mem_nil _)⟩
  | false =>
    rw [if_neg Bool.false_ne_true]
    dsimp only
    obtain ⟨coded, units, hsliced, hstores⟩ := insertLoop_stores serviceMask
      (fixedLengthFormat dataIdentifier) 0 (holds_nil packetLeft) sliced rfl
    rw [insertSlicedDataUnits]
    dsimp only
    generalize insertLoop serviceMask (fixedLengthFormat dataIdentifier) 0 ⟨[], packetLeft, 0⟩
      sliced = i at *
    have hholds := hstores.holds
    rw [List.nil_append] at hholds
    -- nothing is stored behind the lines
    have hplain : ∀ cs : List Nat,
        (readAll cs i.buffer.packet).1 =
          ((coded.filter (selected serviceMask)).take cs.sum).map normal ∧
        (cs ≠ [] → (coded.filter (selected serviceMask)).length ≤ cs.sum →
          (readAll cs i.buffer.packet).2 = []) := by
      intro cs
      have hread := @readAll_codes cs _ _ units [] hstores.codes (List.forall_mem_nil _)
        (by rw [List.append_nil]; exact hholds.sized)
      rw [List.append_nil, ← hholds.packet] at hread
      exact hread
    by_cases herr : i.err.isSome = true
    · exact ⟨_, coded, if_pos herr, hsliced, hplain⟩
    rw [if_neg herr, finish]
    cases stuffing with
    | false => exact ⟨_, coded, rfl, hsliced, hplain⟩
    | true =>
      obtain ⟨packet, hpacket⟩ := hstores.stuffs hsuitable
      rw [if_pos rfl, hpacket]
      refine ⟨_, coded, rfl, hsliced, fun cs => ?_⟩
      obtain ⟨us', fill, henlarged, hfill, hsized, rfl⟩ :=
        (encodeStuffing_stuffed hholds (fun _ => hstores.last_small) hpacket).units
      exact readAll_codes cs (hstores.codes.enlarged henlarged) hfill hsized

/-- A caption line of both fields comes back as one of the first field. -/
theorem caption_both_fields :
    (vbiDvbMultiplexSliced 46 [⟨vbiSlicedCaption625, 21, [0x94, 0x2c]⟩] 0x18 0x10
      true).toOption.map (fun o => (o.left.length, (readAll [1] o.packet).1.map Sliced.id)) =
        some (0, [vbiSlicedCaption625F1]) ∧ vbiSlicedCaption625F1 ≠ vbiSlicedCaption625 := by
  decide +kernel

end DvbSlicedRoundTrip
