import Mathlib.Data.List.Basic
import Zvbi.DvbFrame

/-!
# The DVB VBI demultiplexer

It reads a stream of PES packets, or of TS packets which carry them, in pieces of
any size, extracts the data units of the VBI packets and passes on each frame
when the next one begins. The PES reader asks `wrap_around()` for a window of
bytes. The TS reader copies the payload of its packets into a PES buffer.

The state also records the payloads which were passed to the data unit extraction
and the frames which were passed on, neither of which the reader looks at.
-/

namespace DvbDemux
open DvbFrame

/-- `p[i]`. -/
def byte (p : List UInt8) (i : Nat) : UInt8 := p.getD i 0

/-- The sliced lines of a frame and its time stamp. -/
structure Delivery where
  sliced : List Sliced
  pts : Nat

/-- What a callback function returns. It may depend on all it has seen. -/
abbrev Callback := List Delivery → Bool

/-- The part of the context behind both readers, with its records. -/
structure Decoder where
  frame : Frame 64
  framePts : Nat
  packetPts : Nat
  newFrame : Bool
  handed : List (List UInt8)
  delivered : List Delivery

structure Result (Context : Type) where
  dx : Context
  err : Option Err
  rest : List UInt8

/-- `decode_timestamp()`. A wrong mark is no error. -/
def decodeTimestamp (p : List UInt8) : Nat :=
  let t := (byte p 1).toNat <<< 22 ||| ((byte p 2).toNat &&& 0xfe) <<< 14 |||
    (byte p 3).toNat <<< 7 ||| (byte p 4).toNat >>> 1
  t ||| ((byte p 0).toNat &&& 0x0e) <<< 29

/-- `PES_packet_length`. -/
def packetLength (p : List UInt8) : Nat := (byte p 4).toNat * 256 + (byte p 5).toNat

def validDataIdentifier (b : UInt8) : Bool := (0x10 ≤ b && b ≤ 0x1f) || (0x99 ≤ b && b ≤ 0x9b)

def validVbiPesPacketHeader (d : Decoder) (p : List UInt8) : Decoder × Bool :=
  if byte p 8 ≠ 36 ∨ !validDataIdentifier (byte p 45) ∨ byte p 6 &&& 0xf4 ≠ 0x84 then
    (d, false)
  else if byte p 7 >>> 6 = 2 ∨ byte p 7 >>> 6 = 3 then
    ({ d with packetPts := decodeTimestamp (p.drop 9) }, true)
  else
    -- without a time stamp the packet can only continue a frame
    (d, !d.newFrame)

def commence (d : Decoder) : Decoder :=
  if d.newFrame then
    { d with
      frame := resetFrame
      framePts := d.packetPts
      newFrame := false }
  else
    d

def deliver (d : Decoder) : Decoder :=
  { d with delivered := d.delivered ++ [⟨d.frame.sliced, d.framePts⟩] }

/-- The loop of `demux_pes_packet_frame()`. -/
def packetFrameLoop (callback : Option Callback) : Nat → Decoder → List UInt8 → Result Decoder
  | 0, d, src => ⟨d, none, src⟩
  | passes + 1, d, src =>
    let e := extractDataUnits (commence d).frame src
    let d := { commence d with frame := e.frame }
    match e.refusal with
    | none => ⟨d, none, e.rest⟩
    | some (.failed err) => ⟨d, some err, e.rest⟩
    | some .newFrame =>
      let d := { d with newFrame := true }
      match callback with
      | none => ⟨d, some .callback, e.rest⟩
      | some cb =>
        if cb (deliver d).delivered then
          packetFrameLoop callback passes (deliver d) e.rest
        else
          ⟨deliver d, some .callback, e.rest⟩

/-- `demux_pes_packet_frame()`. Two passes are enough, see `two_passes`. -/
def demuxPesPacketFrame (callback : Option Callback) (d : Decoder) (src : List UInt8) :
    Result Decoder :=
  packetFrameLoop callback 2 { d with handed := d.handed ++ [src] } src

/-- `dx->frame.n_data_units_extracted_from_packet = 0`. -/
def newPacket (d : Decoder) : Decoder :=
  { d with frame := { d.frame with nDataUnitsExtractedFromPacket := 0 } }

def discardFrame (d : Decoder) : Decoder := { d with newFrame := true }

variable {capacity : Nat}

variable {f : Frame capacity} {src : List UInt8} {d : Decoder}

/-- A frame in which a line has been stored in this packet does not end in it. -/
theorem storeLine_continues (v : Service) {data : List UInt8}
    (h : 0 < f.nDataUnitsExtractedFromPacket) :
    (storeLine v f data).2 ≠ some .newFrame ∧
    0 < (storeLine v f data).1.nDataUnitsExtractedFromPacket := by
  rw [storeLine]
  split
  · rename_i r hr
    refine ⟨?_, h⟩
    rw [lineAddress] at hr
    dsimp only at hr
    rintro ⟨⟩
    repeat' split at hr
    all_goals cases hr
    omega
  · rename_i slot hslot
    have hn : 0 < slot.frame.nDataUnitsExtractedFromPacket := by
      rw [lineAddress] at hslot
      dsimp only at hslot
      repeat' split at hslot
      all_goals cases hslot
      all_goals exact Nat.succ_pos _
    split
    · exact ⟨by rintro ⟨⟩, hn⟩
    · exact ⟨by rintro ⟨⟩, hn⟩

/-- A data unit either stores a line, whatever the frame, or does nothing with it. -/
theorem dataUnit_cases (id : UInt8) (data : List UInt8) :
    (∃ v, ∀ f : Frame capacity, dataUnit f id data = storeLine v f data) ∨
    ∃ r, r ≠ some .newFrame ∧ ∀ f : Frame capacity, dataUnit f id data = (f, r) := by
  have hline : ∀ v, (∃ w, ∀ f : Frame capacity, lineUnit v f data = storeLine w f data) ∨
      ∃ r, r ≠ some .newFrame ∧ ∀ f : Frame capacity, lineUnit v f data = (f, r) := by
    intro v
    by_cases h : data.length < v.length
    · exact Or.inr ⟨_, by rintro ⟨⟩, fun f => if_pos h⟩
    · exact Or.inl ⟨v, fun f => if_neg h⟩
  have hteletext : (∃ w, ∀ f : Frame capacity, teletextUnit f data = storeLine w f data) ∨
      ∃ r, r ≠ some .newFrame ∧ ∀ f : Frame capacity, teletextUnit f data = (f, r) := by
    by_cases h : data.length < ebuTeletext.length
    · exact Or.inr ⟨_, by rintro ⟨⟩, fun f => if_pos h⟩
    · by_cases hcode : data.getD 1 0 ≠ 0xe4
      · exact Or.inr ⟨none, by rintro ⟨⟩, fun f => by rw [teletextUnit, if_neg h, if_pos hcode]⟩
      · exact Or.inl ⟨_, fun f => by rw [teletextUnit, if_neg h, if_neg hcode]⟩
  simp only [dataUnit]
  split
  · exact hteletext
  split
  · exact hline vps
  split
  · exact hline wss
  split
  · exact hline zvbiWssCpr1204
  split
  · exact hline zvbiClosedCaption525
  split
  · exact hline closedCaption
  · exact Or.inr ⟨none, by rintro ⟨⟩, fun _ => rfl⟩

theorem extractDataUnits_continues (src : List UInt8) (h : 0 < f.nDataUnitsExtractedFromPacket) :
    (extractDataUnits f src).refusal ≠ some .newFrame := by
  induction src using unit_induction generalizing f with
  | short src hshort =>
    rw [extractDataUnits_short f hshort]
    rintro ⟨⟩
  | unit id length p hp ih =>
    have hunit : (dataUnit f id (p.take length.toNat)).2 ≠ some .newFrame ∧
        0 < (dataUnit f id (p.take length.toNat)).1.nDataUnitsExtractedFromPacket := by
      rcases dataUnit_cases id (p.take length.toNat) with ⟨v, hv⟩ | ⟨r, hr, hskip⟩
      · rw [hv]
        exact storeLine_continues v h
      · rw [hskip]
        exact ⟨hr, h⟩
    rw [extractDataUnits_unit f id length hp]
    split
    · rintro ⟨⟩
    · split
      · rename_i hg
        rw [hg] at hunit
        exact hunit.1
      · rename_i hg
        rw [hg] at hunit
        exact ih hunit.2

/-- The data unit which commences a frame is left behind. -/
theorem extractDataUnits_newFrame (h : (extractDataUnits f src).refusal = some .newFrame) :
    ∃ v id length p, p ≠ [] ∧ length.toNat ≤ p.length ∧
      (extractDataUnits f src).rest = id :: length :: p ∧
      ∀ g : Frame capacity, dataUnit g id (p.take length.toNat) =
        storeLine v g (p.take length.toNat) := by
  induction src using unit_induction generalizing f with
  | short src hshort =>
    rw [extractDataUnits_short f hshort] at h
    cases h
  | unit id length p hp ih =>
    rw [extractDataUnits_unit f id length hp] at h ⊢
    split at h
    · cases h
    · rename_i hlength
      rw [if_neg hlength]
      split at h
      · rename_i g r hg
        dsimp only at h
        cases h
        rcases dataUnit_cases id (p.take length.toNat) with ⟨v, hv⟩ | ⟨r, hr, hskip⟩
        · exact ⟨v, id, length, p, hp, Nat.not_lt.mp hlength, rfl, hv⟩
        · rw [hskip] at hg
          cases hg
          exact absurd rfl hr
      · rename_i g hg
        obtain ⟨v, id', length', p', hp', hlength', hrest, hv⟩ := ih h
        exact ⟨v, id', length', p', hp', hlength', hrest, hv⟩

theorem storeLine_resetFrame (v : Service) (data : List UInt8) :
    (storeLine v (resetFrame : Frame 64) data).2 ≠ some .newFrame ∧
    0 < (storeLine v (resetFrame : Frame 64) data).1.nDataUnitsExtractedFromPacket := by
  have hroom : (resetFrame : Frame 64).sliced.length < 64 := by decide
  rw [storeLine, lineAddress, dif_pos hroom]
  dsimp only [resetFrame]
  by_cases hzero : (lofpToLine (data.getD 0 0) v.system).frameLine = 0
  · simp only [hzero, ne_eq, not_true_eq_false, if_false, false_and]
    split <;> exact ⟨by rintro ⟨⟩, Nat.succ_pos _⟩
  · simp only [hzero, ne_eq, not_false_eq_true, if_true, Nat.le_zero, if_false]
    split <;> exact ⟨by rintro ⟨⟩, Nat.succ_pos _⟩

/-- The packet does not commence another frame after the first one. -/
theorem commence_once {f : Frame 64} (h : (extractDataUnits f src).refusal = some .newFrame) :
    (extractDataUnits (resetFrame : Frame 64) (extractDataUnits f src).rest).refusal ≠
      some .newFrame := by
  obtain ⟨v, id, length, p, hp, hlength, hrest, hv⟩ := extractDataUnits_newFrame h
  have hstore := storeLine_resetFrame v (p.take length.toNat)
  rw [hrest, extractDataUnits_unit _ id length hp, if_neg (Nat.not_lt.mpr hlength), hv]
  split
  · rename_i hg
    rw [hg] at hstore
    exact hstore.1
  · rename_i hg
    rw [hg] at hstore
    exact extractDataUnits_continues _ hstore.2

/-- If the extraction succeeds, all bytes were read. -/
theorem extractDataUnits_rest (src : List UInt8) (h : (extractDataUnits f src).refusal = none) :
    (extractDataUnits f src).rest = [] := by
  induction src using unit_induction generalizing f with
  | short src hshort => rw [extractDataUnits_short f hshort]
  | unit id length p hp ih =>
    rw [extractDataUnits_unit f id length hp] at h ⊢
    split at h
    · cases h
    · rename_i hlength
      rw [if_neg hlength]
      split at h
      · cases h
      · exact ih h

theorem commence_frame (h : d.newFrame = true) : (commence d).frame = resetFrame := by
  rw [commence, if_pos h]

theorem packetFrameLoop_last (callback : Option Callback) (more : Nat)
    (h : (extractDataUnits (commence d).frame src).refusal ≠ some .newFrame) :
    packetFrameLoop callback (more + 1) d src = packetFrameLoop callback 1 d src ∧
    ((packetFrameLoop callback 1 d src).err = none →
      (packetFrameLoop callback 1 d src).rest = []) := by
  rw [packetFrameLoop, packetFrameLoop]
  dsimp only
  split
  · rename_i hdone
    exact ⟨rfl, fun _ => extractDataUnits_rest src hdone⟩
  · refine ⟨rfl, ?_⟩
    rintro ⟨⟩
  · rename_i hnew
    exact absurd hnew h

/-- The loop never needs a third pass, and succeeds only with all bytes read. -/
theorem two_passes (callback : Option Callback) (more : Nat) (d : Decoder) (src : List UInt8) :
    packetFrameLoop callback (2 + more) d src = packetFrameLoop callback 2 d src ∧
    ((packetFrameLoop callback 2 d src).err = none →
      (packetFrameLoop callback 2 d src).rest = []) := by
  rw [Nat.add_comm, packetFrameLoop, packetFrameLoop]
  dsimp only
  split
  · rename_i hdone
    exact ⟨rfl, fun _ => extractDataUnits_rest src hdone⟩
  · refine ⟨rfl, ?_⟩
    rintro ⟨⟩
  · rename_i hfirst
    split
    · refine ⟨rfl, ?_⟩
      rintro ⟨⟩
    · split
      · apply packetFrameLoop_last
        rw [commence_frame (by rfl)]
        exact commence_once hfirst
      · refine ⟨rfl, ?_⟩
        rintro ⟨⟩

theorem demuxPesPacketFrame_rest {callback : Option Callback}
    (h : (demuxPesPacketFrame callback d src).err = none) :
    (demuxPesPacketFrame callback d src).rest = [] :=
  (two_passes callback 0 _ src).2 h

theorem packetFrameLoop_handed (callback : Option Callback) (passes : Nat) (d : Decoder)
    (src : List UInt8) : (packetFrameLoop callback passes d src).dx.handed = d.handed := by
  induction passes generalizing d src with
  | zero => rfl
  | succ passes ih =>
    have hcommenced : (commence d).handed = d.handed := by
      rw [commence]
      split <;> rfl
    rw [packetFrameLoop]
    dsimp only
    split
    · exact hcommenced
    · exact hcommenced
    · split
      · exact hcommenced
      · split
        · rw [ih]
          exact hcommenced
        · exact hcommenced

/-- Every call hands over one payload. -/
theorem demuxPesPacketFrame_handed (callback : Option Callback) (d : Decoder)
    (src : List UInt8) :
    (demuxPesPacketFrame callback d src).dx.handed = d.handed ++ [src] :=
  packetFrameLoop_handed _ _ _ _

/-- `struct wrap`. The unconsumed data in the buffer is `leftover`. -/
structure Wrap where
  leftover : List UInt8
  skip : Nat
  lookahead : Nat

def pesHeaderLookahead : Nat := 48

/-- `w->skip` bytes are removed, or more data is needed to do so. -/
def skipBytes (w : Wrap) (src : List UInt8) : Except Wrap (Wrap × List UInt8) :=
  if w.leftover.length < w.skip then
    let skip := w.skip - w.leftover.length
    if src.length < skip then
      .error { w with leftover := [], skip := skip - src.length }
    else
      .ok ({ w with leftover := [], skip := 0 }, src.drop skip)
  else
    .ok ({ w with leftover := w.leftover.drop w.skip, skip := 0 }, src)

/-- The bytes from `dst` on, and how many of them are before `scan_end`. -/
structure Window where
  wrap : Wrap
  dst : List UInt8
  scanEnd : Nat
  src : List UInt8

/-- The part of `wrap_around()` behind the skipping. -/
def window (w : Wrap) (src : List UInt8) (srcSize : Nat) : Except Wrap Window :=
  let available := w.leftover.length + src.length
  if available < w.lookahead ∨ srcSize < available then
    -- not enough data, or a part of it is in the previous buffer
    if w.leftover.length < w.lookahead then
      let required := w.lookahead - w.leftover.length
      if src.length < required then
        .error { w with leftover := w.leftover ++ src }
      else
        let buffer := w.leftover ++ src.take required
        .ok ⟨{ w with leftover := buffer }, buffer, 0, src.drop required⟩
    else
      .ok ⟨w, w.leftover, w.leftover.length - w.lookahead, src⟩
  else
    .ok ⟨w, w.leftover ++ src, available - w.lookahead, src⟩

/-- `wrap_around()`. An error means that all of the source was read. -/
def wrapAround (w : Wrap) (src : List UInt8) (srcSize : Nat) : Except Wrap Window :=
  match skipBytes w src with
  | .error w => .error w
  | .ok (w, src) => window w src srcSize

inductive Probe
  | advance (n : Nat)
  | foreign
  | packet

def probe (p : List UInt8) : Probe :=
  if byte p 2 &&& 0xfe ≠ 0 then .advance 3
  else if byte p 0 ||| byte p 1 ≠ 0 ∨ byte p 2 ≠ 1 then .advance 1
  else if byte p 3 = 0xbd then .packet
  else if byte p 3 < 0xbc then .advance 1
  else .foreign

inductive Scan
  | nothing (distance : Nat)
  | foreign (distance : Nat)
  | packet (distance : Nat)

/-- The start code scan, from `distance` on. -/
def scan (p : List UInt8) (scanEnd : Nat) : Nat → Nat → Scan
  | 0, distance => .nothing distance
  | fuel + 1, distance =>
    match probe (p.drop distance) with
    | .advance n =>
      if scanEnd ≤ distance + n then .nothing (distance + n) else scan p scanEnd fuel (distance + n)
    | .foreign => .foreign distance
    | .packet => .packet distance

structure PesDemux where
  wrap : Wrap
  decoder : Decoder

/-- `dx->pes_wrap.skip = skip`. -/
def PesDemux.skip (dx : PesDemux) (skip : Nat) : PesDemux :=
  { dx with wrap := { dx.wrap with skip := skip } }

/-- The packet header at `p`, which is `distance` bytes ahead. -/
def pesHeader (dx : PesDemux) (p : List UInt8) (distance : Nat) : PesDemux :=
  if packetLength p < 178 then
    dx.skip (distance + 6 + packetLength p)
  else
    match validVbiPesPacketHeader dx.decoder p with
    | (d, false) => { dx.skip (distance + 6 + packetLength p) with decoder := d }
    | (d, true) =>
      ⟨⟨dx.wrap.leftover, distance + 46, packetLength p - 40⟩, d⟩

def pesScan (dx : PesDemux) (p : List UInt8) (scanEnd : Nat) : PesDemux :=
  match scan p scanEnd (p.length + 1) 0 with
  | .nothing distance => dx.skip distance
  | .foreign distance => dx.skip (distance + 6 + packetLength (p.drop distance))
  | .packet distance => pesHeader dx (p.drop distance) distance

def pesPacketDone (dx : PesDemux) (d : Decoder) (err : Option Err) : PesDemux :=
  ⟨⟨dx.wrap.leftover, dx.wrap.lookahead, pesHeaderLookahead⟩,
    if Err.code err < 0 then discardFrame d else d⟩

/-- The loop of `demux_pes_packet()`. -/
def pesLoop (callback : Option Callback) (srcSize : Nat) :
    Nat → PesDemux → List UInt8 → Result PesDemux
  | 0, dx, src => ⟨dx, none, src⟩
  | fuel + 1, dx, src =>
    match wrapAround dx.wrap src srcSize with
    | .error w => ⟨{ dx with wrap := w }, none, []⟩
    | .ok v =>
      let dx := { dx with wrap := v.wrap }
      if pesHeaderLookahead < dx.wrap.lookahead then
        let r := demuxPesPacketFrame callback (newPacket dx.decoder) (v.dst.take dx.wrap.lookahead)
        if r.err = some .callback then
          ⟨{ dx with decoder := r.dx }, r.err, v.src⟩
        else
          pesLoop callback srcSize fuel (pesPacketDone dx r.dx r.err) v.src
      else
        pesLoop callback srcSize fuel (pesScan dx v.dst v.scanEnd) v.src

/-- `demux_pes_packet()`. Every pass of the loop takes at least one byte. -/
def demuxPesPacket (callback : Option Callback) (dx : PesDemux) (src : List UInt8) :
    Result PesDemux :=
  pesLoop callback src.length (dx.wrap.leftover.length + src.length + 2) dx src

def tsHeaderLookahead : Nat := 10

def tsSyncSearchLookahead : Nat := 197

/-- The context of a TS demultiplexer. The lookahead is in `buffer`, the data
units not extracted yet in `frameTodo`, the PES packet in `pes` and the number of
its bytes to come in `pesTodo`. An unknown continuity counter is -1. -/
structure TsDemux where
  skip : Nat
  consume : Nat
  lookahead : Nat
  buffer : List UInt8
  inSync : Bool
  frameTodo : List UInt8
  pes : List UInt8
  pesTodo : Nat
  continuity : Int
  pid : Nat
  decoder : Decoder

def pesComplete (dx : TsDemux) : TsDemux :=
  match validVbiPesPacketHeader dx.decoder dx.pes with
  | (d, false) =>
    { dx with
      decoder := discardFrame d
      frameTodo := [] }
  | (d, true) =>
    { dx with
      decoder := newPacket d
      frameTodo := dx.pes.drop 46 }

def consumePayload (dx : TsDemux) (payload : List UInt8) : TsDemux :=
  { dx with
    pes := dx.pes ++ payload
    pesTodo := dx.pesTodo - payload.length
    consume := dx.consume - payload.length }

def extractTodo (callback : Option Callback) (dx : TsDemux) : TsDemux × Option Err :=
  if dx.frameTodo = [] then
    (dx, none)
  else
    let r := demuxPesPacketFrame callback dx.decoder dx.frameTodo
    if r.err = some .callback then
      ({ dx with
        decoder := r.dx
        frameTodo := r.rest }, r.err)
    else if Err.code r.err ≠ 0 then
      ({ dx with
        decoder := discardFrame r.dx
        frameTodo := [] }, none)
    else
      ({ dx with
        decoder := r.dx
        frameTodo := r.rest }, none)

/-- `skip_ts_packet`. After resynchronization the buffer extends into the next
packet. -/
def skipTsPacket (dx : TsDemux) (p : List UInt8) : TsDemux :=
  if p.length ≤ 188 then
    { dx with
      skip := 188 - p.length
      buffer := []
      lookahead := tsHeaderLookahead }
  else
    { dx with
      buffer := p.drop 188
      lookahead := tsHeaderLookahead - min (p.length - 188) tsHeaderLookahead }

def skipTsPesPacket (dx : TsDemux) (p : List UInt8) : TsDemux :=
  skipTsPacket { dx with
    decoder := discardFrame dx.decoder
    pesTodo := 0
    consume := 0 } p

def copyFragment (dx : TsDemux) (p : List UInt8) : TsDemux :=
  if p.length ≤ 188 then
    let consume := min dx.pesTodo 184
    let fragment := min (p.length - 4) consume
    { dx with
      pes := dx.pes ++ (p.drop 4).take fragment
      pesTodo := dx.pesTodo - fragment
      consume := consume - fragment
      buffer := []
      lookahead := tsHeaderLookahead }
  else
    let fragment := min dx.pesTodo 184
    { dx with
      pes := dx.pes ++ (p.drop 4).take fragment
      pesTodo := dx.pesTodo - fragment
      buffer := p.drop 188
      lookahead := tsHeaderLookahead - min (p.length - 188) tsHeaderLookahead }

/-- A PES packet with `PRIVATE_STREAM_1` starts in the payload. -/
def pesStart (p : List UInt8) : Bool :=
  byte p 4 ||| byte p 5 = 0 && byte p 6 = 1 && byte p 7 = 0xbd

def TsDemux.startPes (dx : TsDemux) (size : Nat) : TsDemux :=
  { dx with
    pes := []
    pesTodo := size }

def tsPayload (dx : TsDemux) (p : List UInt8) : TsDemux :=
  if dx.pesTodo = 0 then
    if !pesStart p then skipTsPesPacket dx p
    else if packetLength (p.drop 4) < 178 then skipTsPesPacket dx p
    else copyFragment (dx.startPes (packetLength (p.drop 4) + 6)) p
  else if (byte p 1).toNat.testBit 6 then
    -- payload_unit_start_indicator
    skipTsPesPacket dx p
  else
    copyFragment dx p

/-- `dx->ts_continuity = b3 + 1`. -/
def TsDemux.count (dx : TsDemux) (p : List UInt8) : TsDemux :=
  { dx with continuity := (byte p 3).toNat + 1 }

def tsContinuity (dx : TsDemux) (p : List UInt8) : TsDemux :=
  let b3 : Int := (byte p 3).toNat
  if 0 ≤ dx.continuity ∧ dx.continuity % 16 ≠ b3 % 16 then
    if (dx.continuity - 1) % 16 = b3 % 16 then
      -- repeated
      skipTsPacket dx p
    else
      skipTsPesPacket (dx.count p) p
  else
    tsPayload (dx.count p) p

/-- `pid`. -/
def tsPid (p : List UInt8) : Nat := ((byte p 1).toNat * 256 + (byte p 2).toNat) % 0x2000

/-- The packet header at `p`, the sync byte being verified. -/
def tsHeader (dx : TsDemux) (p : List UInt8) : TsDemux :=
  if (byte p 1).toNat.testBit 7 then skipTsPesPacket dx p
  else if tsPid p ≠ dx.pid then skipTsPacket dx p
  else if byte p 3 &&& 0xc0 ≠ 0 then skipTsPesPacket dx p
  else if byte p 3 &&& 0x30 = 0x10 then tsContinuity dx p
  else if byte p 3 &&& 0x30 = 0x20 then skipTsPacket dx p
  else skipTsPesPacket dx p

/-- A packet seems to start at `p`. -/
def syncAt (p : List UInt8) : Bool :=
  byte p 0 = 0x47 && ((188 < p.length && byte p 188 = 0x47) || (7 < p.length && pesStart p))

def syncSearch : Nat → List UInt8 → Option (List UInt8)
  | 0, _ => none
  | n + 1, p => if syncAt p then some p else syncSearch n (p.drop 1)

def tsLookahead (dx : TsDemux) : TsDemux :=
  if dx.inSync then
    if byte dx.buffer 0 ≠ 0x47 then
      { dx with
        inSync := false
        decoder := discardFrame dx.decoder
        pesTodo := 0
        consume := 0
        continuity := -1
        lookahead := tsSyncSearchLookahead - dx.buffer.length }
    else
      tsHeader dx dx.buffer
  else
    match syncSearch 188 dx.buffer with
    | none =>
      { dx with
        buffer := dx.buffer.drop 188
        lookahead := tsSyncSearchLookahead - (dx.buffer.length - 188) }
    | some p => tsHeader { dx with inSync := true } p

def consumeAll (dx : TsDemux) (payload : List UInt8) : TsDemux :=
  let copied := consumePayload dx payload
  if 0 < dx.consume ∧ copied.pesTodo = 0 then pesComplete copied else copied

def tsRead (dx : TsDemux) (src : List UInt8) : Except TsDemux (TsDemux × List UInt8) :=
  if src.length < dx.skip then
    .error { dx with skip := dx.skip - src.length }
  else
    let src := src.drop dx.skip
    if src.length < dx.lookahead then
      .error { dx with
        skip := 0
        buffer := dx.buffer ++ src
        lookahead := dx.lookahead - src.length }
    else
      .ok ({ dx with
        skip := 0
        buffer := dx.buffer ++ src.take dx.lookahead }, src.drop dx.lookahead)

/-- The loop of `demux_ts_packet()`. -/
def tsLoop (callback : Option Callback) : Nat → TsDemux → List UInt8 → Result TsDemux
  | 0, dx, src => ⟨dx, none, src⟩
  | fuel + 1, dx, src =>
    if src.length < dx.consume then
      ⟨consumePayload dx src, none, []⟩
    else
      match extractTodo callback (consumeAll dx (src.take dx.consume)) with
      | (dx', some err) => ⟨dx', some err, src.drop dx.consume⟩
      | (dx', none) =>
        match tsRead dx' (src.drop dx.consume) with
        | .error dx => ⟨dx, none, []⟩
        | .ok (dx, src) => tsLoop callback fuel (tsLookahead dx) src

/-- `demux_ts_packet()`. Every pass of the loop takes at least one byte. -/
def demuxTsPacket (callback : Option Callback) (dx : TsDemux) (src : List UInt8) :
    Result TsDemux :=
  if src = [] then ⟨dx, none, []⟩ else tsLoop callback (src.length + 1) dx src

/-- `vbi_dvb_demux`, by the value of `demux_packet`. -/
inductive Demux
  | pes (dx : PesDemux)
  | ts (dx : TsDemux)

def resetDecoder : Decoder := ⟨resetFrame, 0, 0, true, [], []⟩

/-- The context `vbi_dvb_pes_demux_new()` returns. -/
def pesDemuxNew : PesDemux := ⟨⟨[], 0, pesHeaderLookahead⟩, resetDecoder⟩

/-- The context `_vbi_dvb_ts_demux_new()` returns. -/
def tsDemuxNew (pid : Nat) : TsDemux where
  skip := 0
  consume := 0
  lookahead := tsSyncSearchLookahead
  buffer := []
  inSync := false
  frameTodo := []
  pes := []
  pesTodo := 0
  continuity := -1
  pid := pid
  decoder := resetDecoder

inductive IsNew : Demux → Prop
  | pes : IsNew (.pes pesDemuxNew)
  | ts (pid : Nat) : IsNew (.ts (tsDemuxNew pid))

def Demux.decoder : Demux → Decoder
  | .pes dx => dx.decoder
  | .ts dx => dx.decoder

def Demux.withDecoder (d : Decoder) : Demux → Demux
  | .pes dx => .pes { dx with decoder := d }
  | .ts dx => .ts { dx with decoder := d }

/-- `dx->demux_packet()`. -/
def Demux.demuxPacket (callback : Option Callback) (src : List UInt8) : Demux → Result Demux
  | .pes dx => let r := demuxPesPacket callback dx src; ⟨.pes r.dx, r.err, r.rest⟩
  | .ts dx => let r := demuxTsPacket callback dx src; ⟨.ts r.dx, r.err, r.rest⟩

/-- `vbi_dvb_demux_feed()`. After an error the rest of the buffer is lost. -/
def feed (callback : Callback) (dx : Demux) (buffer : List UInt8) : Demux × Bool :=
  let r := dx.demuxPacket (some callback) buffer
  (r.dx, r.err.isNone)

def takeLines (d : Decoder) (maxLines : Nat) : Decoder :=
  { d with
    frame := { d.frame with
      sliced := []
      sliced_le := Nat.zero_le 64 }
    delivered := d.delivered ++ [⟨d.frame.sliced.take maxLines, d.framePts⟩] }

/-- `vbi_dvb_demux_cor()`. The lines are recorded as delivered unless there are
none. -/
def cor (dx : Demux) (maxLines : Nat) (buffer : List UInt8) : Demux × List UInt8 :=
  let r := dx.demuxPacket none buffer
  let nLines := min r.dx.decoder.frame.sliced.length maxLines
  if r.err ≠ none ∧ 0 < nLines then
    (r.dx.withDecoder (takeLines r.dx.decoder maxLines), r.rest)
  else
    (r.dx, r.rest)

end DvbDemux
