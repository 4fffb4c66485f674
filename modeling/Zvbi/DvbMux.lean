import Mathlib.Data.List.Basic
import Zvbi.DvbMuxUnits

/-!
# The DVB VBI multiplexer

A frame of sliced and raw lines is coded in one PES packet, if it fits, which is
passed on as it is or cut into TS packets. `vbi_dvb_mux_feed()` passes packets to a
callback function, `vbi_dvb_mux_cor()` stores as much as the caller has room for and
continues in the next call. The encoding of a raw line which does not fit is
continued in the next packet, so its samples are kept.
-/

namespace DvbMux
open DvbMuxUnits
open DvbFrame (Sliced)

def maxPesPacketSize : Nat := 6 + 65535 - (6 + 65535) % 184

/-- `min_packet_size` and `max_packet_size`. -/
structure PacketSize where
  min : Nat
  max : Nat
  dvd_min : 184 ∣ min
  dvd_max : 184 ∣ max
  pos : 0 < min
  min_le_max : min ≤ max
  max_le : max ≤ maxPesPacketSize

/-- How `vbi_dvb_mux_set_pes_packet_size()` rounds the minimum. -/
def roundMin (minSize : Nat) : Nat :=
  if minSize < 184 then 184
  else if maxPesPacketSize < minSize then maxPesPacketSize
  else minSize + 183 - (minSize + 183) % 184

def roundMax (minSize maxSize : Nat) : Nat :=
  if maxSize < minSize then minSize
  else if maxPesPacketSize < maxSize then maxPesPacketSize
  else maxSize - maxSize % 184

theorem roundMin_spec (minSize : Nat) :
    184 ∣ roundMin minSize ∧ 0 < roundMin minSize ∧ roundMin minSize ≤ maxPesPacketSize := by
  have hmax : maxPesPacketSize = 65504 := rfl
  rw [roundMin]
  split
  · omega
  split <;> omega

theorem roundMax_spec {minSize : Nat} (maxSize : Nat) (hdvd : 184 ∣ minSize)
    (hle : minSize ≤ maxPesPacketSize) :
    184 ∣ roundMax minSize maxSize ∧ minSize ≤ roundMax minSize maxSize ∧
      roundMax minSize maxSize ≤ maxPesPacketSize := by
  have hmax : maxPesPacketSize = 65504 := rfl
  rw [roundMax]
  split
  · omega
  split <;> omega

/-- `vbi_dvb_mux_set_pes_packet_size()`. -/
def setPesPacketSize (minSize maxSize : Nat) : PacketSize where
  min := roundMin minSize
  max := roundMax (roundMin minSize) maxSize
  dvd_min := (roundMin_spec minSize).1
  dvd_max := (roundMax_spec maxSize (roundMin_spec minSize).1 (roundMin_spec minSize).2.2).1
  pos := (roundMin_spec minSize).2.1
  min_le_max := (roundMax_spec maxSize (roundMin_spec minSize).1 (roundMin_spec minSize).2.2).2.1
  max_le := (roundMax_spec maxSize (roundMin_spec minSize).1 (roundMin_spec minSize).2.2).2.2

/-- What `vbi_dvb_mux_set_data_identifier()` accepts. -/
def ValidDataIdentifier (id : Nat) : Prop := (0x10 ≤ id ∧ id < 0x20) ∨ (0x99 ≤ id ∧ id < 0x9c)

def fixedLengthFormat (dataIdentifier : Nat) : Bool := dataIdentifier / 16 = 1

/-- The options of a multiplexer. A PID of zero stands for a PES stream. -/
structure Options where
  size : PacketSize
  dataIdentifier : Nat
  valid : ValidDataIdentifier dataIdentifier
  pid : Nat

/-- `vbi_sampling_par`. -/
structure SamplingPar where
  scanning : BitVec 32
  samplingFormat : Nat
  samplingRate : BitVec 32
  bytesPerLine : BitVec 32
  offset : BitVec 32
  start : Bool → BitVec 32
  count : Bool → BitVec 32
  interlaced : Bool
  synchronous : Bool

def vbiPixfmtYuv420 : Nat := 1
def bt601_625Offset : Nat := 864 - 12 - 720

def rangeCheck (start count : BitVec 32) (min max : Nat) : Bool :=
  min ≤ start.toNat && (start + count).toNat ≤ max && start.toNat ≤ (start + count).toNat

/-- `_vbi_sampling_par_valid_log()` for the sampling format and video standard
which `valid_sampling_par()` permits. -/
def samplingParValid (sp : SamplingPar) : Bool :=
  sp.bytesPerLine ≠ 0 &&
  !(sp.count false = 0 && sp.count true = 0) &&
  (sp.start false = 0 || rangeCheck (sp.start false) (sp.count false) 1 311) &&
  (sp.start true = 0 || rangeCheck (sp.start true) (sp.count true) 312 625) &&
  !(sp.interlaced && (sp.count false ≠ sp.count true || sp.count false = 0))

def validSamplingPar (sp : SamplingPar) : Bool :=
  let samplesEnd := sp.offset + sp.bytesPerLine
  sp.scanning = 625 &&
  sp.samplingFormat = vbiPixfmtYuv420 &&
  sp.samplingRate = 13500000 &&
  bt601_625Offset ≤ sp.offset.toNat &&
  samplesEnd.toNat ≤ bt601_625Offset + 720 &&
  sp.bytesPerLine.toNat ≤ samplesEnd.toNat &&
  sp.synchronous &&
  samplingParValid sp

structure RawLine where
  samples : List UInt8
  line : Nat
  offset : BitVec 32
  samplesPerLine : BitVec 32

/-- The state of a multiplexer. The packet begins with four bytes for a TS packet
header. -/
structure State where
  raw : RawLine
  continuityCounter : Nat
  packet : List UInt8
  corOffset : Nat
  corEnd : Nat
  corTsLeft : Nat

/-- `vbi_dvb_pes_mux_new()` and `vbi_dvb_ts_mux_new()`. -/
def muxNew : State := ⟨⟨[], 0, 0, 0⟩, 0, [0, 0, 0, 0], 0, 0, 0⟩

/-- `vbi_dvb_mux_reset()`. -/
def reset (mx : State) : State :=
  { mx with
    raw := { mx.raw with samples := [] }
    continuityCounter := (mx.continuityCounter + 15) % 16
    corOffset := 0
    corEnd := 0 }

structure FrameData where
  sliced : List Sliced
  serviceMask : Nat
  raw : Option (Nat → UInt8)
  sp : Option SamplingPar
  pts : BitVec 64

inductive Fault
  | assertion
  | nullPointer

def samplesPointer (raw : Option (Nat → UInt8)) (sp : Option SamplingPar) (line : Nat) :
    Except Err (Nat → UInt8) :=
  match raw, sp with
  | none, _ => .error .noRawData
  | some _, none => .error .samplingPar
  | some raw, some sp =>
    let field : Bool := 313 ≤ line
    if line = 0 then .error .lineNumber
    else if line < (sp.start field).toNat then .error .rawBufferOverflow
    else
      let row := line - (sp.start field).toNat
      if (sp.count field).toNat ≤ row then .error .rawBufferOverflow
      else
        let row :=
          if sp.interlaced then row * 2 + field.toNat
          else if field then row + (sp.count false).toNat
          else row
        .ok fun i => raw (row * sp.bytesPerLine.toNat + i)

def rawSamples (f : FrameData) (sp : SamplingPar) (pending : RawLine) (line : Nat) :
    Except Err (List UInt8) :=
  if pending.samples.isEmpty then
    (samplesPointer f.raw f.sp line).map fun p => (List.range sp.bytesPerLine.toNat).map p
  else
    .ok pending.samples

/-- Where the loop of `generate_pes_packet()` stopped. -/
structure Generation where
  buffer : Buffer
  raw : RawLine
  rest : List Sliced
  err : Option Err

inductive RawOutcome
  | fault (e : Fault)
  | failed (raw : RawLine) (e : Err)
  | stored (b : Buffer) (left : List UInt8) (sp : SamplingPar)

def insertRawLine (fixedLength : Bool) (f : FrameData) (b : Buffer) (pending : RawLine)
    (line : Nat) : RawOutcome :=
  match f.sp with
  | none =>
    if pending.samples.isEmpty then
      match samplesPointer f.raw none line with
      | .error e => .failed pending e
      | .ok _ => .fault .nullPointer
    else
      .fault .nullPointer
  | some sp =>
    match rawSamples f sp pending line with
    | .error e => .failed pending e
    | .ok samples =>
      if 720 < samples.length then
        .fault .assertion
      else
        match insertRawDataUnits b samples fixedLength vbiVideostdSet62550 line
          (sp.offset.toNat - bt601_625Offset) sp.bytesPerLine.toNat true with
        | .error e => .failed { pending with samples := [] } e
        | .ok (b, left) => .stored b left sp

/-- The loop of `generate_pes_packet()`, where `span` are the lines from `s_begin`. -/
def generateLoop (fixedLength : Bool) (f : FrameData) :
    Nat → List Sliced → Buffer → RawLine → List Sliced → Except Fault Generation
  | _, span, b, pending, [] =>
    let i := insertSlicedDataUnits f.serviceMask fixedLength b span
    .ok ⟨i.buffer, pending, i.rest, i.err⟩
  | lastLine, span, b, pending, s :: us =>
    if 0 < s.line ∧ s.line ≤ lastLine then
      .ok ⟨b, pending, s :: us, some .lineOrder⟩
    else
      let lastLine := if 0 < s.line then s.line else lastLine
      if s.id ≠ vbiSlicedVbi625 then
        generateLoop fixedLength f lastLine (span ++ [s]) b pending us
      else
        let i := insertSlicedDataUnits f.serviceMask fixedLength b span
        if i.err.isSome ∨ i.rest ≠ [] then
          .ok ⟨i.buffer, pending, i.rest ++ s :: us, i.err⟩
        else if f.serviceMask &&& vbiSlicedVbi625 = 0 then
          generateLoop fixedLength f lastLine [] i.buffer pending us
        else
          match insertRawLine fixedLength f i.buffer pending s.line with
          | .fault e => .error e
          | .failed raw e => .ok ⟨i.buffer, raw, s :: us, some e⟩
          | .stored b left sp =>
            if left.isEmpty then
              generateLoop fixedLength f lastLine [] b { pending with samples := [] } us
            else
              .ok ⟨b, ⟨left, s.line, sp.offset, sp.bytesPerLine⟩, s :: us, none⟩

def encodeTimestamp (pts : BitVec 64) (mark : Nat) : List UInt8 :=
  let t := pts.toNat
  [UInt8.ofNat (mark + (t >>> 29 &&& 0x0e)), UInt8.ofNat (t >>> 22), UInt8.ofNat (t >>> 14 ||| 1),
    UInt8.ofNat (t >>> 7), UInt8.ofNat (t * 2 + 1)]

def pesPacketHeader (size : Nat) (pts : BitVec 64) (dataIdentifier : Nat) : List UInt8 :=
  [0x00, 0x00, 0x01, 0xbd, UInt8.ofNat ((size - 6) >>> 8), UInt8.ofNat (size - 6),
    0x84, 0x80, 0x24] ++
  encodeTimestamp pts 0x21 ++ List.replicate 31 0xff ++ [UInt8.ofNat dataIdentifier]

/-- How many bytes of stuffing a packet of `size` bytes needs. -/
def stuffingSize (minPacketSize size : Nat) : Nat :=
  if size < minPacketSize then minPacketSize - size
  else if 0 < size % 184 then 184 - size % 184
  else 0

def interrupted (mx : State) (f : FrameData) : Except Fault Bool :=
  if mx.raw.samples.isEmpty then
    .ok false
  else
    match f.sliced with
    | [] => .ok true
    | s :: _ =>
      if s.id ≠ vbiSlicedVbi625 ∨ mx.raw.line ≠ s.line then .ok true
      else
        match f.sp with
        | none => .error .nullPointer
        | some sp =>
          .ok (mx.raw.offset ≠ sp.offset || mx.raw.samplesPerLine ≠ sp.bytesPerLine)

/-- What `generate_pes_packet()` leaves behind: the samples of an unfinished line, the
lines not coded, and the packet. -/
structure Generated where
  raw : RawLine
  rest : List Sliced
  packet : Except Err (List UInt8)

def encodeLines (o : Options) (mx : State) (f : FrameData) : Except Fault Generation :=
  generateLoop (fixedLengthFormat o.dataIdentifier) f 0 [] ⟨[], o.size.max - 46, 0⟩ mx.raw f.sliced

def finishPacket (o : Options) (f : FrameData) (g : Generation) : Except Fault Generated :=
  match g.err with
  | some e => .ok ⟨g.raw, g.rest, .error e⟩
  | none =>
    let size := 46 + g.buffer.packet.length
    let pLeft := stuffingSize o.size.min size
    match encodeStuffing { g.buffer with pLeft := pLeft } (fixedLengthFormat o.dataIdentifier) with
    | none => .error .assertion
    | some units =>
      .ok ⟨g.raw, g.rest, .ok (pesPacketHeader (size + pLeft) f.pts o.dataIdentifier ++ units)⟩

/-- `generate_pes_packet()`. -/
def generatePesPacket (o : Options) (mx : State) (f : FrameData) : Except Fault Generated := do
  if ← interrupted mx f then
    return ⟨mx.raw, f.sliced, .error .rawDataInterruption⟩
  else
    finishPacket o f (← encodeLines o mx f)

def tsPacketHeader (pid counter offset : Nat) : List UInt8 :=
  [0x47, UInt8.ofNat ((if offset = 0 then 1 <<< 6 else 0) ||| pid >>> 8), UInt8.ofNat pid,
    UInt8.ofNat (1 <<< 4 + counter % 16)]

def generateTsPacketHeader (o : Options) (mx : State) (offset : Nat) : State :=
  { mx with
    packet := mx.packet.take offset ++ tsPacketHeader o.pid mx.continuityCounter offset ++
      mx.packet.drop (offset + 4)
    continuityCounter := mx.continuityCounter + 1 }

/-- What a callback function returns. It may depend on all it has seen. -/
abbrev Callback := List (List UInt8) → Bool

structure Fed where
  mx : State
  ok : Bool
  packets : List (List UInt8)

/-- The loop of `vbi_dvb_mux_feed()`. -/
def feedLoop (o : Options) (callback : Callback) (packetSize : Nat) :
    Nat → State → Nat → List (List UInt8) → Fed
  | 0, mx, _, packets => ⟨mx, true, packets⟩
  | fuel + 1, mx, offset, packets =>
    let mx := generateTsPacketHeader o mx offset
    let packets := packets ++ [(mx.packet.drop offset).take 188]
    if callback packets then
      if offset + 184 < packetSize then
        feedLoop o callback packetSize fuel mx (offset + 184) packets
      else
        ⟨mx, true, packets⟩
    else
      ⟨mx, false, packets⟩

def feedPacket (o : Options) (callback : Callback) (mx : State) (pes : List UInt8) : Fed :=
  if o.pid = 0 then
    ⟨mx, callback [pes], [pes]⟩
  else
    feedLoop o callback pes.length pes.length mx 0 []

/-- Unconsumed data from a previous `vbi_dvb_mux_cor()` call is lost. -/
def dropUnconsumed (mx : State) : State :=
  if mx.corOffset < mx.corEnd then { mx with corEnd := 0 } else mx

/-- The parameters of raw data, if given, are valid. -/
def FrameData.validSp (f : FrameData) : Bool := f.sp.all validSamplingPar

def State.setPacket (mx : State) (raw : RawLine) (pes : List UInt8) : State :=
  { mx with
    raw := raw
    packet := mx.packet.take 4 ++ pes }

/-- `vbi_dvb_mux_feed()`. -/
def feed (o : Options) (callback : Option Callback) (mx : State) (f : FrameData) :
    Except Fault Fed :=
  match callback with
  | none => .ok ⟨mx, false, []⟩
  | some callback =>
    if f.validSp then do
      let mx := dropUnconsumed mx
      let g ← generatePesPacket o mx f
      match g.packet with
      | .error _ => return ⟨{ mx with raw := g.raw }, false, []⟩
      | .ok pes =>
        if g.rest.isEmpty then
          return feedPacket o callback (mx.setPacket g.raw pes) pes
        else
          return ⟨mx.setPacket g.raw pes, false, []⟩
    else
      .ok ⟨mx, false, []⟩

structure Stored where
  mx : State
  ok : Bool
  bytes : List UInt8
  sliced : List Sliced

/-- The loop of `vbi_dvb_mux_cor()`. -/
def corLoop (o : Options) : Nat → State → Nat → List UInt8 → State × List UInt8
  | 0, mx, _, bytes => (mx, bytes)
  | fuel + 1, mx, pLeft, bytes =>
    let mx :=
      if mx.corTsLeft = 0 then
        { generateTsPacketHeader o mx (mx.corOffset - 4) with
          corOffset := mx.corOffset - 4
          corTsLeft := 188 }
      else mx
    let size := min pLeft mx.corTsLeft
    let bytes := bytes ++ (mx.packet.drop mx.corOffset).take size
    let mx := { mx with
      corOffset := mx.corOffset + size
      corTsLeft := mx.corTsLeft - size }
    if 0 < pLeft - size ∧ mx.corOffset < mx.corEnd then
      corLoop o fuel mx (pLeft - size) bytes
    else
      (mx, bytes)

def corStore (o : Options) (mx : State) (bufferLeft : Nat) (sliced : List Sliced) : Stored :=
  let r :=
    if o.pid = 0 then
      let size := min bufferLeft (mx.corEnd - mx.corOffset)
      ({ mx with corOffset := mx.corOffset + size }, (mx.packet.drop mx.corOffset).take size)
    else
      corLoop o bufferLeft mx bufferLeft []
  ⟨r.1, true, r.2, if r.1.corEnd ≤ r.1.corOffset then [] else sliced⟩

/-- `vbi_dvb_mux_cor()`. -/
def cor (o : Options) (mx : State) (bufferLeft : Nat) (f : FrameData) : Except Fault Stored :=
  if bufferLeft = 0 then
    .ok ⟨mx, false, [], f.sliced⟩
  else if f.validSp = false then
    .ok ⟨mx, false, [], f.sliced⟩
  else if mx.corOffset < mx.corEnd then
    .ok (corStore o mx bufferLeft f.sliced)
  else if f.sliced.isEmpty then
    .ok ⟨mx, false, [], f.sliced⟩
  else do
    let g ← generatePesPacket o mx f
    match g.packet with
    | .error _ => return ⟨{ mx with raw := g.raw, corEnd := 0 }, false, [], g.rest⟩
    | .ok pes =>
      if g.rest.isEmpty then
        let mx := { mx.setPacket g.raw pes with
          corOffset := 4
          corEnd := pes.length + 4
          corTsLeft := 0 }
        return corStore o mx bufferLeft f.sliced
      else
        return ⟨{ mx with raw := g.raw, corEnd := 0 }, false, [], g.rest⟩

end DvbMux
