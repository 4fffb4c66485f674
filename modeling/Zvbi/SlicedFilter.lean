import Zvbi.Hamming
import Zvbi.PageCache
import Zvbi.PageTable

/-!
# The filter for sliced data

The filter keeps the Teletext packets of selected pages. It has no other memory than a
set of magazines, bit `m` for magazine `m`, whose packets are kept until the next header.
In serial mode the set has all magazines or none. A header which ends a selected page is
kept as well, and so is the very first one.
-/

namespace SlicedFilter
open Hamming PageTable WordBitmap

/-- The fields of `vbi_sliced` the filter uses. -/
structure VbiSliced where
  id : BitVec 32
  line : Nat
  data : Nat → UInt8

/-- `vbi_sliced_filter`, less its buffer, its callback and what the application asked for
last. -/
structure VbiSlicedFilter where
  keepTtxPages : VbiPageTable
  keepTtxSystemPages : Bool
  keepMagSetNext : BitVec 32
  start : Bool
  keepServices : BitVec 32

inductive Error
  | pageNumber
  | packetFlags
  | packetNumber
  | overflow
  deriving DecidableEq

/-- `errstr`. -/
def Error.text : Error → String
  | .pageNumber => "Hamming error in Teletext page number."
  | .packetFlags => "Hamming error in Teletext packet flags."
  | .packetNumber => "Hamming error in Teletext packet/magazine number."
  | .overflow => "Output buffer overflow."

/-- `VBI_SLICED_TELETEXT_B_L10_625`, `VBI_SLICED_TELETEXT_B_L25_625` and both. -/
def isTeletext (id : BitVec 32) : Bool := id == 1 || id == 2 || id == 3

def pmag (buffer : Nat → UInt8) : Int := vbiUnham16p (buffer 0) (buffer 1)

def magazine (buffer : Nat → UInt8) : Nat :=
  if (pmag buffer).toNat % 8 = 0 then 8 else (pmag buffer).toNat % 8

def packet (buffer : Nat → UInt8) : Nat := (pmag buffer).toNat / 8

def page (buffer : Nat → UInt8) : Int := vbiUnham16p (buffer 2) (buffer 3)

def flags (buffer : Nat → UInt8) : Int :=
  Int.lor (Int.lor (vbiUnham16p (buffer 4) (buffer 5)) (vbiUnham16p (buffer 6) (buffer 7) * 2 ^ 8))
    (vbiUnham16p (buffer 8) (buffer 9) * 2 ^ 16)

def pgno (buffer : Nat → UInt8) : Nat := magazine buffer * 0x100 + (page buffer).toNat

/-- `flags & VBI_SERIAL`. -/
def serial (buffer : Nat → UInt8) : Bool := (flags buffer).toNat.testBit 20

def selected (sf : VbiSlicedFilter) (buffer : Nat → UInt8) : Bool :=
  if PageCache.vbiIsBcd (pgno buffer) then
    containsSubpage sf.keepTtxPages (pgno buffer) ((flags buffer).toNat &&& 0x3F7F : Nat)
  else
    sf.keepTtxSystemPages

def magSet (buffer : Nat → UInt8) : BitVec 32 :=
  if serial buffer then -1#32 else 1#32 <<< magazine buffer

/-- `decode_teletext_packet_0()`, with the new `*keep_mag_set`. -/
def decodeTeletextPacket0 (sf : VbiSlicedFilter) (keepMagSet : BitVec 32) (buffer : Nat → UInt8) :
    Except Error (VbiSlicedFilter × BitVec 32) :=
  if page buffer < 0 then
    .error .pageNumber
  else if page buffer = 0xFF then
    .ok (sf, 0)
  else if flags buffer < 0 then
    .error .packetFlags
  else if selected sf buffer then
    let keepMagSet := keepMagSet ||| magSet buffer
    .ok ({ sf with keepMagSetNext := keepMagSet, start := false }, keepMagSet)
  else if keepMagSet &&& magSet buffer ≠ 0 then
    .ok ({ sf with keepMagSetNext := keepMagSet &&& ~~~ magSet buffer, start := false }, keepMagSet)
  else if sf.start then
    .ok ({ sf with keepMagSetNext := 0, start := false }, magSet buffer)
  else
    let keepMagSet := keepMagSet &&& ~~~ magSet buffer
    .ok ({ sf with keepMagSetNext := keepMagSet, start := false }, keepMagSet)

/-- `decode_teletext()`, with `*keep`. -/
def decodeTeletext (sf : VbiSlicedFilter) (buffer : Nat → UInt8) :
    Except Error (VbiSlicedFilter × Bool) :=
  if pmag buffer < 0 then
    .error .packetNumber
  else if packet buffer = 0 then
    (decodeTeletextPacket0 sf sf.keepMagSetNext buffer).map fun r =>
      (r.1, r.2.getLsbD (magazine buffer))
  else if packet buffer < 30 then
    .ok (sf, sf.keepMagSetNext.getLsbD (magazine buffer))
  else
    .ok (sf, false)

/-- `pass_through` for one line. -/
def passThrough (sf : VbiSlicedFilter) (s : VbiSliced) : Except Error (VbiSlicedFilter × Bool) :=
  if s.id &&& sf.keepServices ≠ 0 then .ok (sf, true)
  else if isTeletext s.id then decodeTeletext sf s.data
  else .ok (sf, false)

/-- The result of `vbi_sliced_filter_cor()`: the filter, the lines in the output buffer,
the number of lines read, and the error if it failed. -/
structure Result where
  filter : VbiSlicedFilter
  slicedOut : List VbiSliced
  linesIn : Nat
  error : Option Error

/-- The loop over the lines, of which `n` have been read. -/
def corLoop (maxLinesOut : Nat) :
    VbiSlicedFilter → List VbiSliced → Nat → List VbiSliced → Result
  | sf, out, n, [] => ⟨sf, out, n, none⟩
  | sf, out, n, s :: rest =>
    match passThrough sf s with
    | .error e => ⟨sf, out, n, some e⟩
    | .ok (sf, false) => corLoop maxLinesOut sf out (n + 1) rest
    | .ok (sf, true) =>
      if maxLinesOut ≤ out.length then ⟨sf, out, n, some .overflow⟩
      else corLoop maxLinesOut sf (out ++ [s]) (n + 1) rest

/-- `vbi_sliced_filter_cor()`. -/
def cor (sf : VbiSlicedFilter) (maxLinesOut : Nat) (slicedIn : List VbiSliced) : Result :=
  corLoop maxLinesOut sf [] 0 slicedIn

/-- `vbi_sliced_filter_reset()`. -/
def reset (sf : VbiSlicedFilter) : VbiSlicedFilter := { sf with keepMagSetNext := 0, start := true }

/-- One call for each frame, with the room in its output buffer. -/
def corFrames : VbiSlicedFilter → List (Nat × List VbiSliced) → List Result
  | _, [] => []
  | sf, (maxLinesOut, lines) :: frames =>
    let r := cor sf maxLinesOut lines
    r :: corFrames r.filter frames

def IsHeader (s : VbiSliced) : Bool :=
  isTeletext s.id && packet s.data == 0 && page s.data != 0xFF

/-- The header of the page in transmission: the last one, in parallel mode of the same
magazine. The lines in the past begin with the latest. -/
def lastHeader (serialMode : Bool) (m : Nat) (past : List VbiSliced) : Option VbiSliced :=
  past.find? fun s => IsHeader s && (serialMode || magazine s.data == m)

def inTransmission (sf : VbiSlicedFilter) (serialMode : Bool) (m : Nat) (past : List VbiSliced) :
    Bool :=
  (lastHeader serialMode m past).any fun s => selected sf s.data

/-- The lines to keep: of Teletext the headers and following packets 1 to 29 of selected
pages, the headers which end them, and the very first header. -/
def kept (sf : VbiSlicedFilter) (serialMode : Bool) (past : List VbiSliced) (s : VbiSliced) : Bool :=
  if isTeletext s.id then
    if packet s.data = 0 then
      IsHeader s && (selected sf s.data || inTransmission sf serialMode (magazine s.data) past ||
        !past.any IsHeader)
    else
      decide (packet s.data < 30) && inTransmission sf serialMode (magazine s.data) past
  else
    s.id &&& sf.keepServices != 0

/-- The lines to keep of a stream, in their order. -/
def keptLines (sf : VbiSlicedFilter) (serialMode : Bool) :
    List VbiSliced → List VbiSliced → List VbiSliced
  | _, [] => []
  | past, s :: rest =>
    (if kept sf serialMode past s then [s] else []) ++ keptLines sf serialMode (s :: past) rest

/-- A line without transmission errors. All headers have the same mode. -/
structure ErrorFree (serialMode : Bool) (s : VbiSliced) : Prop where
  number : isTeletext s.id → 0 ≤ pmag s.data
  page : isTeletext s.id → packet s.data = 0 → 0 ≤ page s.data
  flags : IsHeader s → 0 ≤ flags s.data
  mode : IsHeader s → serial s.data = serialMode

/-- The filter with another set of magazines and start flag. -/
def VbiSlicedFilter.with (sf : VbiSlicedFilter) (keep : BitVec 32) (start : Bool) :
    VbiSlicedFilter :=
  { sf with keepMagSetNext := keep, start := start }

structure Tracks (sf : VbiSlicedFilter) (serialMode : Bool) (past : List VbiSliced)
    (keep : BitVec 32) (start : Bool) : Prop where
  start : start = !past.any IsHeader
  bits : ∀ m, 1 ≤ m → m ≤ 8 → keep.getLsbD m = inTransmission sf serialMode m past
  uniform : serialMode = true → keep = 0#32 ∨ keep = -1#32

theorem magazine_range (buffer : Nat → UInt8) : 1 ≤ magazine buffer ∧ magazine buffer ≤ 8 := by
  rw [magazine]
  split <;> omega

variable {m : Nat}

theorem getLsbD_neg_one (hm : m ≤ 8) : (-1#32).getLsbD m = true := by
  rw [BitVec.neg_one_eq_allOnes, BitVec.getLsbD_allOnes]
  exact decide_eq_true (by omega)

theorem magSet_bit (buffer : Nat → UInt8) (hm : m ≤ 8) :
    (magSet buffer).getLsbD m = (serial buffer || magazine buffer == m) := by
  rw [magSet]
  cases serial buffer with
  | true =>
    rw [if_pos rfl, Bool.true_or]
    exact getLsbD_neg_one hm
  | false =>
    rw [if_neg Bool.false_ne_true, Bool.false_or, getLsbD_one_shiftLeft (by omega)]
    exact decide_eq_decide.mpr eq_comm

variable {keep : BitVec 32} {s : VbiSliced} {past : List VbiSliced} {serialMode start : Bool}
  {sf : VbiSlicedFilter}

/-- The magazine of a header is in the set if and only if the header ends a page. -/
theorem and_magSet {buffer : Nat → UInt8} (h : serial buffer = true → keep = 0#32 ∨ keep = -1#32) :
    keep &&& magSet buffer ≠ 0#32 ↔ keep.getLsbD (magazine buffer) = true := by
  have hrange := magazine_range buffer
  rw [magSet]
  cases hs : serial buffer with
  | true =>
    rw [if_pos rfl]
    rcases h hs with hzero | hones
    · rw [hzero, BitVec.zero_and, BitVec.getLsbD_zero]
      exact iff_of_false (fun hne => hne rfl) Bool.false_ne_true
    · rw [hones, getLsbD_neg_one hrange.2]
      exact iff_of_true (by decide) rfl
  | false =>
    rw [if_neg Bool.false_ne_true]
    exact and_one_shiftLeft_ne_zero (by omega)

theorem inTransmission_header (sf : VbiSlicedFilter) (serialMode : Bool) (m : Nat)
    (past : List VbiSliced) (hs : IsHeader s = true) :
    inTransmission sf serialMode m (s :: past) =
      if serialMode || magazine s.data == m then selected sf s.data
      else inTransmission sf serialMode m past := by
  rw [inTransmission, lastHeader, List.find?_cons, hs, Bool.true_and]
  cases serialMode || magazine s.data == m with
  | true => rfl
  | false => rfl

theorem inTransmission_other (sf : VbiSlicedFilter) (serialMode : Bool) (m : Nat)
    (past : List VbiSliced) (hs : IsHeader s = false) :
    inTransmission sf serialMode m (s :: past) = inTransmission sf serialMode m past := by
  rw [inTransmission, lastHeader, List.find?_cons, hs, Bool.false_and]
  rfl

theorem Tracks.other {sf : VbiSlicedFilter} {serialMode : Bool} {past : List VbiSliced}
    {keep : BitVec 32} {start : Bool} (h : Tracks sf serialMode past keep start) {s : VbiSliced}
    (hs : IsHeader s = false) : Tracks sf serialMode (s :: past) keep start := by
  refine ⟨?_, fun m hlow hhigh => ?_, h.uniform⟩
  · rw [List.any_cons, hs, Bool.false_or]
    exact h.start
  · rw [inTransmission_other sf serialMode m past hs]
    exact h.bits m hlow hhigh

theorem Tracks.header
    (h : Tracks sf serialMode past keep start)
    (hs : IsHeader s = true) {keep' : BitVec 32}
    (hbits : ∀ m, 1 ≤ m → m ≤ 8 → keep'.getLsbD m =
      if serialMode || magazine s.data == m then selected sf s.data else keep.getLsbD m)
    (huniform : serialMode = true → keep' = 0#32 ∨ keep' = -1#32) :
    Tracks sf serialMode (s :: past) keep' false := by
  refine ⟨?_, fun m hlow hhigh => ?_, huniform⟩
  · rw [List.any_cons, hs]
    rfl
  · rw [inTransmission_header sf serialMode m past hs, hbits m hlow hhigh, h.bits m hlow hhigh]

theorem teletext_not_kept (h : sf.keepServices &&& 3#32 = 0#32) {id : BitVec 32}
    (hid : isTeletext id = true) : id &&& sf.keepServices = 0#32 := by
  have hmask : id = id &&& 3#32 := by
    rw [isTeletext, Bool.or_eq_true, Bool.or_eq_true, beq_iff_eq, beq_iff_eq, beq_iff_eq] at hid
    rcases hid with (rfl | rfl) | rfl <;> decide
  rw [hmask, BitVec.and_assoc, BitVec.and_comm 3#32, h, BitVec.and_zero]

theorem clear_bit (keep : BitVec 32) (buffer : Nat → UInt8) (hm : m ≤ 8) :
    (keep &&& ~~~ magSet buffer).getLsbD m =
      (keep.getLsbD m && !(serial buffer || magazine buffer == m)) := by
  rw [BitVec.getLsbD_and, BitVec.getLsbD_not, magSet_bit buffer hm,
    decide_eq_true (show m < 32 by omega), Bool.true_and]

theorem no_header (h : past.any IsHeader = false) (m : Nat) :
    inTransmission sf serialMode m past = false := by
  have hnone : lastHeader serialMode m past = none := by
    rw [lastHeader, List.find?_eq_none]
    intro s hs
    rw [List.any_eq_false] at h
    rw [Bool.eq_false_iff.mpr (h s hs), Bool.false_and]
    exact Bool.false_ne_true
  rw [inTransmission, hnone]
  rfl

theorem header_tracks (h : Tracks sf serialMode past keep start) (hs : IsHeader s = true)
    (hfree : ErrorFree serialMode s) :
    ∃ keep', ∃ set : BitVec 32,
      decodeTeletextPacket0 (sf.with keep start) keep s.data = .ok (sf.with keep' false, set) ∧
      set.getLsbD (magazine s.data) = (selected sf s.data ||
        inTransmission sf serialMode (magazine s.data) past || !past.any IsHeader) ∧
      Tracks sf serialMode (s :: past) keep' false := by
  have hrange := magazine_range s.data
  have hmode := hfree.mode hs
  have hpage : ¬ page s.data < 0 ∧ ¬ page s.data = 0xFF := by
    have hheader := hs
    rw [IsHeader, Bool.and_eq_true, Bool.and_eq_true, beq_iff_eq, bne_iff_ne] at hheader
    exact ⟨Int.not_lt.mpr (hfree.page hheader.1.1 hheader.1.2), hheader.2⟩
  have hflags : ¬ flags s.data < 0 := Int.not_lt.mpr (hfree.flags hs)
  have hown : (magSet s.data).getLsbD (magazine s.data) = true := by
    rw [magSet_bit s.data hrange.2, beq_self_eq_true, Bool.or_true]
  have hends : keep &&& magSet s.data ≠ 0#32 ↔ keep.getLsbD (magazine s.data) = true :=
    and_magSet fun hserial => h.uniform (hmode.symm.trans hserial)
  rw [← h.bits _ hrange.1 hrange.2, ← h.start]
  have hones : serialMode = true → magSet s.data = -1#32 := by
    intro hserial
    rw [magSet, hmode, hserial, if_pos rfl]
  have hclear : ∀ m, 1 ≤ m → m ≤ 8 → selected sf s.data = false →
      (keep &&& ~~~ magSet s.data).getLsbD m =
        if serialMode || magazine s.data == m then selected sf s.data else keep.getLsbD m := by
    intro m _ hm hnot
    rw [clear_bit keep s.data hm, hmode, hnot]
    cases serialMode || magazine s.data == m with
    | true => rw [Bool.not_true, Bool.and_false, if_pos rfl]
    | false => rw [Bool.not_false, Bool.and_true, if_neg Bool.false_ne_true]
  have hclearAll : serialMode = true → keep &&& ~~~ magSet s.data = 0#32 := by
    intro hserial
    rw [hones hserial]
    exact BitVec.and_zero
  rw [decodeTeletextPacket0, if_neg hpage.1, if_neg hpage.2, if_neg hflags,
    show selected (sf.with keep start) s.data = selected sf s.data from rfl]
  cases hselected : selected sf s.data with
  | true =>
    refine ⟨keep ||| magSet s.data, _, if_pos rfl, ?_, h.header hs ?_ ?_⟩
    · rw [BitVec.getLsbD_or, hown, Bool.or_true]
      rfl
    · intro m _ hm
      rw [BitVec.getLsbD_or, magSet_bit s.data hm, hmode, hselected]
      cases serialMode || magazine s.data == m with
      | true => rw [Bool.or_true, if_pos rfl]
      | false => rw [Bool.or_false, if_neg Bool.false_ne_true]
    · intro hserial
      rw [hones hserial]
      exact Or.inr BitVec.or_allOnes
  | false =>
    rw [if_neg Bool.false_ne_true]
    by_cases hprevious : keep &&& magSet s.data ≠ 0#32
    · refine ⟨keep &&& ~~~ magSet s.data, keep, if_pos hprevious, ?_, h.header hs ?_ ?_⟩
      · rw [hends.mp hprevious]
        rfl
      · exact fun m hlow hhigh => hclear m hlow hhigh hselected
      · exact fun hserial => Or.inl (hclearAll hserial)
    · have hbit : keep.getLsbD (magazine s.data) = false :=
        Bool.eq_false_iff.mpr fun hbit => hprevious (hends.mpr hbit)
      rw [hbit]
      cases hstart : start with
      | true =>
        have hnone : past.any IsHeader = false := by
          have hfirst := h.start
          rw [hstart] at hfirst
          simpa using hfirst.symm
        refine ⟨0#32, magSet s.data, ?_, hown, h.header hs ?_ fun _ => Or.inl rfl⟩
        · exact (if_neg hprevious).trans (if_pos rfl)
        · intro m hlow hhigh
          rw [hselected, h.bits m hlow hhigh, no_header hnone, BitVec.getLsbD_zero, ite_self]
      | false =>
        refine ⟨keep &&& ~~~ magSet s.data, keep &&& ~~~ magSet s.data, ?_, ?_,
          h.header hs (fun m hlow hhigh => hclear m hlow hhigh hselected)
            fun hserial => Or.inl (hclearAll hserial)⟩
        · exact (if_neg hprevious).trans (if_neg Bool.false_ne_true)
        · rw [BitVec.getLsbD_and, hbit]
          rfl

theorem passThrough_tracks (hservices : sf.keepServices &&& 3#32 = 0#32)
    (h : Tracks sf serialMode past keep start) (hfree : ErrorFree serialMode s) :
    ∃ keep' start', passThrough (sf.with keep start) s =
        .ok (sf.with keep' start', kept sf serialMode past s) ∧
      Tracks sf serialMode (s :: past) keep' start' := by
  rw [kept, passThrough, show (sf.with keep start).keepServices = sf.keepServices from rfl]
  by_cases hteletext : isTeletext s.id = true
  · have hnumber : ¬ pmag s.data < 0 := Int.not_lt.mpr (hfree.number hteletext)
    have hmagazine := magazine_range s.data
    rw [teletext_not_kept hservices hteletext, if_neg fun hne => hne rfl, if_pos hteletext,
      if_pos hteletext, decodeTeletext, if_neg hnumber]
    by_cases hpacket : packet s.data = 0
    · rw [if_pos hpacket, if_pos hpacket]
      by_cases hheader : IsHeader s = true
      · obtain ⟨keep', set, hdecode, hset, htracks⟩ := header_tracks h hheader hfree
        refine ⟨keep', false, ?_, htracks⟩
        rw [show (sf.with keep start).keepMagSetNext = keep from rfl, hdecode, hheader,
          Bool.true_and, ← hset]
        rfl
      · have hother : IsHeader s = false := Bool.eq_false_iff.mpr hheader
        have hfiller : page s.data = 0xFF := by
          by_contra hpage
          refine hheader ?_
          rw [IsHeader, hteletext, hpacket, bne_iff_ne.mpr hpage]
          rfl
        refine ⟨keep, start, ?_, h.other hother⟩
        rw [decodeTeletextPacket0, hfiller, if_neg (by decide), if_pos rfl, hother,
          Bool.false_and]
        exact congrArg Except.ok (Prod.ext rfl BitVec.getLsbD_zero)
    · have hother : IsHeader s = false := by
        rw [IsHeader, beq_eq_false_iff_ne.mpr hpacket, Bool.and_false, Bool.false_and]
      refine ⟨keep, start, ?_, h.other hother⟩
      rw [if_neg hpacket, if_neg hpacket]
      by_cases hbody : packet s.data < 30
      · rw [if_pos hbody, decide_eq_true hbody, Bool.true_and,
          ← h.bits _ hmagazine.1 hmagazine.2]
        rfl
      · rw [if_neg hbody, decide_eq_false hbody, Bool.false_and]
  · have hother : IsHeader s = false := by
      rw [IsHeader, Bool.eq_false_iff.mpr hteletext, Bool.false_and, Bool.false_and]
    refine ⟨keep, start, ?_, h.other hother⟩
    rw [if_neg hteletext, if_neg hteletext]
    by_cases hservice : s.id &&& sf.keepServices ≠ 0
    · rw [if_pos hservice, bne_iff_ne.mpr hservice]
    · rw [if_neg hservice, bne_eq_false_iff_eq.mpr (not_not.mp hservice)]

theorem keptLines_append (sf : VbiSlicedFilter) (serialMode : Bool)
    (past first rest : List VbiSliced) :
    keptLines sf serialMode past (first ++ rest) =
      keptLines sf serialMode past first ++
        keptLines sf serialMode (first.reverse ++ past) rest := by
  induction first generalizing past with
  | nil => rfl
  | cons s first ih =>
    rw [List.cons_append, keptLines, keptLines, ih, List.append_assoc, List.reverse_cons,
      List.append_assoc]
    rfl

/-- The loop over the lines of a frame, with enough room for all of them. -/
theorem corLoop_tracks (hservices : sf.keepServices &&& 3#32 = 0#32) (maxLinesOut : Nat)
    (lines : List VbiSliced) (h : Tracks sf serialMode past keep start)
    (hfree : ∀ s ∈ lines, ErrorFree serialMode s) (out : List VbiSliced) (n : Nat)
    (hroom : out.length + lines.length ≤ maxLinesOut) :
    ∃ keep' start', corLoop maxLinesOut (sf.with keep start) out n lines =
        ⟨sf.with keep' start', out ++ keptLines sf serialMode past lines, n + lines.length, none⟩ ∧
      Tracks sf serialMode (lines.reverse ++ past) keep' start' := by
  induction lines generalizing past keep start out n with
  | nil => exact ⟨keep, start, by rw [keptLines, List.append_nil]; rfl, h⟩
  | cons s lines ih =>
    obtain ⟨keep', start', hpass, htracks⟩ :=
      passThrough_tracks hservices h (hfree s List.mem_cons_self)
    have hrest := fun s hs => hfree s (List.mem_cons_of_mem _ hs)
    rw [List.length_cons] at hroom ⊢
    rw [corLoop, hpass, keptLines, List.reverse_cons, List.append_assoc]
    cases hkept : kept sf serialMode past s with
    | false =>
      obtain ⟨k, b, hloop, hdone⟩ := ih htracks hrest out (n + 1) (by omega)
      refine ⟨k, b, ?_, hdone⟩
      rw [show n + (lines.length + 1) = n + 1 + lines.length by omega]
      exact hloop
    | true =>
      have hlength : (out ++ [s]).length = out.length + 1 := List.length_append
      obtain ⟨k, b, hloop, hdone⟩ := ih htracks hrest (out ++ [s]) (n + 1) (by omega)
      refine ⟨k, b, ?_, hdone⟩
      rw [show n + (lines.length + 1) = n + 1 + lines.length by omega, if_pos rfl,
        ← List.append_assoc, ← hloop]
      exact if_neg (by omega)

def stream (frames : List (Nat × List VbiSliced)) : List VbiSliced := frames.flatMap Prod.snd

theorem corFrames_tracks (hservices : sf.keepServices &&& 3#32 = 0#32)
    (frames : List (Nat × List VbiSliced)) (h : Tracks sf serialMode past keep start)
    (hfree : ∀ s ∈ stream frames, ErrorFree serialMode s)
    (hroom : ∀ frame ∈ frames, frame.2.length ≤ frame.1) :
    (∀ r ∈ corFrames (sf.with keep start) frames, r.error = none) ∧
      (corFrames (sf.with keep start) frames).flatMap Result.slicedOut =
        keptLines sf serialMode past (stream frames) := by
  induction frames generalizing past keep start with
  | nil => exact ⟨fun r hr => absurd hr List.not_mem_nil, rfl⟩
  | cons frame frames ih =>
    obtain ⟨maxLinesOut, lines⟩ := frame
    have hlines : ∀ s ∈ lines, ErrorFree serialMode s := fun s hs =>
      hfree s (List.mem_flatMap.mpr ⟨_, List.mem_cons_self, hs⟩)
    have hrest : ∀ s ∈ stream frames, ErrorFree serialMode s := fun s hs => by
      obtain ⟨frame, hframe, hs⟩ := List.mem_flatMap.mp hs
      exact hfree s (List.mem_flatMap.mpr ⟨frame, List.mem_cons_of_mem _ hframe, hs⟩)
    have hfits : ([] : List VbiSliced).length + lines.length ≤ maxLinesOut := by
      rw [List.length_nil, Nat.zero_add]
      exact hroom (maxLinesOut, lines) List.mem_cons_self
    obtain ⟨keep', start', hcor, htracks⟩ :=
      corLoop_tracks hservices maxLinesOut lines h hlines [] 0 hfits
    obtain ⟨herrors, hout⟩ := ih htracks hrest
      fun frame hframe => hroom frame (List.mem_cons_of_mem _ hframe)
    have hframes : corFrames (sf.with keep start) ((maxLinesOut, lines) :: frames) =
        ⟨sf.with keep' start', keptLines sf serialMode past lines, 0 + lines.length, none⟩ ::
          corFrames (sf.with keep' start') frames := by
      rw [corFrames, cor, hcor]
      rfl
    rw [hframes]
    constructor
    · intro r hr
      rcases List.mem_cons.mp hr with rfl | hr
      · rfl
      · exact herrors r hr
    · rw [List.flatMap_cons, hout]
      exact (keptLines_append sf serialMode past lines (stream frames)).symm

/-- Of a stream in all-serial or all-parallel mode exactly the lines to keep are stored, in
their order, whatever frames they come in. -/
theorem corFrames_kept (sf : VbiSlicedFilter) (hservices : sf.keepServices &&& 3#32 = 0#32)
    (serialMode : Bool) (frames : List (Nat × List VbiSliced))
    (hfree : ∀ s ∈ stream frames, ErrorFree serialMode s)
    (hroom : ∀ frame ∈ frames, frame.2.length ≤ frame.1) :
    (∀ r ∈ corFrames (reset sf) frames, r.error = none) ∧
      (corFrames (reset sf) frames).flatMap Result.slicedOut =
        keptLines sf serialMode [] (stream frames) := by
  have hreset : Tracks sf serialMode [] 0#32 true :=
    ⟨rfl, fun _ _ _ => BitVec.getLsbD_zero, fun _ => Or.inl rfl⟩
  exact corFrames_tracks hservices frames hreset hfree hroom

instance (serialMode : Bool) (s : VbiSliced) : Decidable (ErrorFree serialMode s) :=
  decidable_of_iff
    ((isTeletext s.id → 0 ≤ pmag s.data) ∧
      (isTeletext s.id → packet s.data = 0 → 0 ≤ page s.data) ∧
      (IsHeader s → 0 ≤ flags s.data) ∧ (IsHeader s → serial s.data = serialMode))
    ⟨fun h => ⟨h.1, h.2.1, h.2.2.1, h.2.2.2⟩, fun h => ⟨h.number, h.page, h.flags, h.mode⟩⟩

def filter100 : VbiSlicedFilter where
  keepTtxPages := (addPages (fun _ n => some n) PageTable.new 0x100 0x100).1
  keepTtxSystemPages := false
  keepMagSetNext := 0
  start := false
  keepServices := 0x400

def teletextLine (bytes : List UInt8) : VbiSliced := ⟨3, 7, fun i => bytes.getD i 0x15⟩

def threePages : List (Nat × List VbiSliced) := [
  (3, [teletextLine [0x49, 0x15], teletextLine [0x02, 0x15], teletextLine [0xC7, 0x15]]),
  (3, [teletextLine [0xD0, 0x02], teletextLine [0x02, 0x15, 0x02], teletextLine [0xC7, 0x15]])]

theorem corFrames_kept_threePages :
    (∀ r ∈ corFrames (reset filter100) threePages, r.error = none) ∧
      (corFrames (reset filter100) threePages).flatMap Result.slicedOut =
        keptLines filter100 false [] (stream threePages) :=
  corFrames_kept filter100 (by decide) false threePages (by decide +kernel) (by decide)

/-- A filter which selects no more than another one. -/
structure Finer (fine coarse : VbiSlicedFilter) : Prop where
  pages : ∀ buffer, selected fine buffer = true → selected coarse buffer = true
  services : ∀ id : BitVec 32, id &&& fine.keepServices ≠ 0 → id &&& coarse.keepServices ≠ 0

variable {fine coarse : VbiSlicedFilter} {rest : List VbiSliced}

theorem Finer.inTransmission (h : Finer fine coarse)
    (hfine : inTransmission fine serialMode m past = true) :
    SlicedFilter.inTransmission coarse serialMode m past = true := by
  rw [SlicedFilter.inTransmission, Option.any_eq_true] at *
  obtain ⟨s, hs, hselected⟩ := hfine
  exact ⟨s, hs, h.pages s.data hselected⟩

theorem Finer.kept (h : Finer fine coarse) (hfine : kept fine serialMode past s = true) :
    SlicedFilter.kept coarse serialMode past s = true := by
  have htransmission := @h.inTransmission (magazine s.data) past serialMode
  rw [SlicedFilter.kept] at hfine ⊢
  by_cases htext : isTeletext s.id = true
  · by_cases hheader : packet s.data = 0
    · simp only [if_pos htext, if_pos hheader, Bool.and_eq_true, Bool.or_eq_true] at hfine ⊢
      exact ⟨hfine.1, hfine.2.imp_left (Or.imp (h.pages s.data) htransmission)⟩
    · simp only [if_pos htext, if_neg hheader, Bool.and_eq_true] at hfine ⊢
      exact ⟨hfine.1, htransmission hfine.2⟩
  · simp only [if_neg htext, bne_iff_ne] at hfine ⊢
    exact h.services s.id hfine

/-- What is left of a stream tells the second filter as much as the stream. -/
structure Same (fine coarse : VbiSlicedFilter) (serialMode : Bool)
    (past rest : List VbiSliced) : Prop where
  header : rest.any IsHeader = past.any IsHeader
  fine : ∀ m, inTransmission fine serialMode m rest = inTransmission fine serialMode m past
  coarse : ∀ m, inTransmission coarse serialMode m rest = inTransmission coarse serialMode m past

theorem Same.push (h : Same fine coarse serialMode past rest) (s : VbiSliced) :
    Same fine coarse serialMode (s :: past) (s :: rest) := by
  refine ⟨by rw [List.any_cons, List.any_cons, h.header], fun m => ?_, fun m => ?_⟩
  all_goals
    cases hs : IsHeader s
    · simp only [inTransmission_other _ _ _ _ hs, h.fine, h.coarse]
    · simp only [inTransmission_header _ _ _ _ hs, h.fine, h.coarse]

/-- A line the first filter drops ends no page the second one selects. -/
theorem Same.drop (h : Same fine coarse serialMode past rest) (hfiner : Finer fine coarse)
    (hdropped : kept coarse serialMode past s = false) :
    Same fine coarse serialMode (s :: past) rest := by
  cases hs : IsHeader s
  · refine ⟨?_, fun m => ?_, fun m => ?_⟩
    · rw [List.any_cons, hs, h.header, Bool.false_or]
    · rw [inTransmission_other _ _ _ _ hs, h.fine]
    · rw [inTransmission_other _ _ _ _ hs, h.coarse]
  · have hheader := hs
    simp only [IsHeader, Bool.and_eq_true, beq_iff_eq] at hheader
    rw [kept, if_pos hheader.1.1, if_pos hheader.1.2, hs, Bool.true_and] at hdropped
    simp only [Bool.or_eq_false_iff, Bool.not_eq_false'] at hdropped
    obtain ⟨⟨hcoarse, hended⟩, hany⟩ := hdropped
    have hended' : ∀ m, (serialMode || magazine s.data == m) = true →
        inTransmission coarse serialMode m past = false := by
      intro m hm
      cases serialMode
      · rwa [← eq_of_beq hm]
      · exact hended
    refine ⟨by rw [List.any_cons, hs, h.header, hany, Bool.true_or], fun m => ?_, fun m => ?_⟩
    all_goals
      rw [inTransmission_header _ _ _ _ hs]
      split
    · rename_i hm
      have hfine : selected fine s.data = false :=
        Bool.eq_false_iff.mpr fun hselected => by simp [hfiner.pages _ hselected] at hcoarse
      refine (Bool.eq_false_iff.mpr fun hsent => ?_).trans hfine.symm
      have hsent' := (h.coarse m).symm.trans (hfiner.inTransmission hsent)
      exact Bool.false_ne_true ((hended' m hm).symm.trans hsent')
    · exact h.fine m
    · rename_i hm
      rw [hcoarse, h.coarse, hended' m hm]
    · exact h.coarse m

theorem keptLines_keptLines (hfiner : Finer fine coarse) (lines : List VbiSliced)
    (h : Same fine coarse serialMode past rest) :
    keptLines fine serialMode rest (keptLines coarse serialMode past lines) =
      keptLines fine serialMode past lines := by
  induction lines generalizing past rest with
  | nil => rfl
  | cons s lines ih =>
    have hfine : kept fine serialMode rest s = kept fine serialMode past s := by
      rw [kept, kept, h.fine, h.header]
    cases hcoarse : kept coarse serialMode past s
    · have hdropped : kept fine serialMode past s = false :=
        Bool.eq_false_iff.mpr fun hkept => by simp [hfiner.kept hkept] at hcoarse
      simp only [keptLines, hcoarse, hdropped, Bool.false_eq_true, if_false, List.nil_append]
      exact ih (h.drop hfiner hcoarse)
    · simp only [keptLines, hcoarse, if_true, List.singleton_append, hfine]
      rw [ih (h.push s)]

theorem keptLines_subset (sf : VbiSlicedFilter) (serialMode : Bool) (past lines : List VbiSliced) :
    ∀ s ∈ keptLines sf serialMode past lines, s ∈ lines := by
  induction lines generalizing past with
  | nil => exact fun s hs => hs
  | cons t lines ih =>
    intro s hs
    rcases List.mem_append.mp hs with hs | hs
    · split at hs
      · exact List.mem_cons.mpr (Or.inl (List.mem_singleton.mp hs))
      · cases hs
    · exact List.mem_cons_of_mem t (ih _ s hs)

/-- A filter in front of one which selects no more makes no difference to what that one stores. -/
theorem filters_in_a_row (hfiner : Finer fine coarse) (hfine : fine.keepServices &&& 3#32 = 0#32)
    (hcoarse : coarse.keepServices &&& 3#32 = 0#32) (frames more : List (Nat × List VbiSliced))
    (hfree : ∀ s ∈ stream frames, ErrorFree serialMode s)
    (hroom : ∀ frame ∈ frames ++ more, frame.2.length ≤ frame.1)
    (hmore : stream more = (corFrames (reset coarse) frames).flatMap Result.slicedOut) :
    (corFrames (reset fine) more).flatMap Result.slicedOut =
      (corFrames (reset fine) frames).flatMap Result.slicedOut := by
  obtain ⟨hroom, hroom'⟩ := List.forall_mem_append.mp hroom
  have hreset : ∀ sf, Tracks sf serialMode [] 0#32 true := fun sf =>
    ⟨rfl, fun _ _ _ => BitVec.getLsbD_zero, fun _ => Or.inl rfl⟩
  have hkept := hmore.trans (corFrames_tracks hcoarse frames (hreset coarse) hfree hroom).2
  have hfree' : ∀ s ∈ stream more, ErrorFree serialMode s := fun s hs =>
    hfree s (keptLines_subset _ _ _ _ s (hkept ▸ hs))
  refine (corFrames_tracks hfine more (hreset fine) hfree' hroom').2.trans ?_
  rw [hkept, keptLines_keptLines hfiner (stream frames) ⟨rfl, fun _ => rfl, fun _ => rfl⟩]
  exact (corFrames_tracks hfine frames (hreset fine) hfree hroom).2.symm

/-- The same filter twice. -/
theorem filters_in_a_row_twice :
    (corFrames (reset filter100) ((corFrames (reset filter100) threePages).map fun r =>
      (3, r.slicedOut))).flatMap Result.slicedOut =
        (corFrames (reset filter100) threePages).flatMap Result.slicedOut :=
  @filters_in_a_row false filter100 filter100 ⟨fun _ h => h, fun _ h => h⟩ (by decide) (by decide)
    threePages _ (by decide +kernel) (by decide +kernel) (by simp [stream, List.flatMap_map])

end SlicedFilter
