import Zvbi.Hamming
import Mathlib.Data.List.Basic

/-!
# The Page Function Clear demultiplexer

The demultiplexer filters the Teletext packets of one page and reassembles the
data blocks carried in their payload. Structure headers and block data are
collected in the same buffer, with the same position and remaining count, and
an application id of -1 tells a header from data.

A packet is 42 bytes long. The search for the next block reads the byte behind
it when a block ends with the last byte of the packet, so the model takes that
byte as a part of the packet.
-/

namespace PfcDemux
open Hamming

def blockSeparator : Int := 0x0C

def fillerByte : Int := 0x03

/-- The last 42 bytes of a Teletext packet and the byte which follows them in
memory. -/
structure Packet where
  buffer : List UInt8
  length_eq : buffer.length = 42
  behind : UInt8
  deriving DecidableEq

/-- `buffer[i]`, for `i` up to 42. -/
def Packet.byte (p : Packet) (i : Nat) : UInt8 := (p.buffer ++ [p.behind]).getD i 0

/-- Three bytes for magazine, packet number and block pointer come first. -/
def Packet.payload (p : Packet) : List UInt8 := p.buffer.drop 3

/-- `vbi_pfc_block`. -/
structure PfcBlock where
  pgno : Nat
  stream : Nat
  applicationId : Int
  blockSize : Nat
  block : List UInt8
  deriving DecidableEq

/-- `vbi_pfc_demux`, less the callback. -/
structure Demux where
  ci : Nat
  packet : Nat
  nPackets : Nat
  bi : Nat
  left : Nat
  block : PfcBlock
  deriving DecidableEq

structure Outcome where
  dx : Demux
  delivered : List PfcBlock
  ok : Bool
  deriving DecidableEq

/-- `vbi_pfc_demux_reset()`. -/
def reset (dx : Demux) : Demux :=
  { dx with
    ci := 256
    packet := 256
    nPackets := 0
    bi := 0
    left := 0
    block := { dx.block with applicationId := -1 } }

/-- `_vbi_pfc_demux_init()`. -/
def init (pgno stream : Nat) : Demux :=
  reset ⟨0, 0, 0, 0, 0, ⟨pgno, stream, 0, 0, List.replicate 2048 0⟩⟩

/-- The `memcpy()` into the block buffer with the update of the counters. -/
def store (dx : Demux) (bytes : List UInt8) : Demux :=
  { dx with
    bi := dx.bi + bytes.length
    left := dx.left - bytes.length
    block := { dx.block with
      block := dx.block.block.take dx.bi ++ bytes ++ dx.block.block.drop (dx.bi + bytes.length) } }

def structureHeader (block : List UInt8) : Int :=
  vbiUnham16p (block.getD 0 0) (block.getD 1 0) + vbiUnham16p (block.getD 2 0) (block.getD 3 0) * 256

def openData (dx : Demux) (sh : Nat) : Demux :=
  { dx with
    bi := 0
    left := sh / 32
    block := { dx.block with applicationId := (sh % 32 : Nat), blockSize := sh / 32 } }

def openHeader (dx : Demux) : Demux :=
  { dx with
    bi := 0
    left := 4
    block := { dx.block with applicationId := -1 } }

inductive Collected where
  /-- Nothing was expected, or a block is complete. -/
  | free (dx : Demux) (col : Nat) (delivered : List PfcBlock)
  /-- A structure header is complete. -/
  | header (dx : Demux) (col : Nat)
  | unfinished (dx : Demux)
  | lost (dx : Demux) (delivered : List PfcBlock)

def interpret (callback : PfcBlock → Bool) (dx : Demux) (col : Nat) : Collected :=
  if dx.block.applicationId < 0 then
    let sh := structureHeader dx.block.block
    if sh < 0 then .lost dx [] else .header (openData dx sh.toNat) col
  else if callback dx.block then
    .free dx col [dx.block]
  else
    .lost dx [dx.block]

/-- The body of `if (dx->left > 0)`. -/
def collect (callback : PfcBlock → Bool) (p : Packet) (col : Nat) (dx : Demux) : Collected :=
  if dx.left = 0 then
    .free dx col []
  else
    let size := min dx.left (42 - col)
    let dx := store dx ((p.buffer.drop col).take size)
    if dx.left > 0 then .unfinished dx else interpret callback dx (col + size)

inductive Search where
  | found (col : Nat)
  | done
  | lost

def separatorAt (p : Packet) (i : Nat) : Search :=
  if vbiUnham8 (p.byte i) = blockSeparator then .found (i + 1) else .lost

def skipFillers (p : Packet) : Nat → Nat → Search
  | 0, _ => .done
  | fuel + 1, col =>
    if vbiUnham8 (p.byte col) = fillerByte then
      if col + 1 ≥ 42 then .done else skipFillers p fuel (col + 1)
    else
      separatorAt p col

/-- The search for the next block separator. Only at the beginning of a packet
does it use the block pointer. -/
def findSeparator (p : Packet) (bp : Nat) (col : Nat) : Search :=
  if col ≤ 3 then
    if bp ≥ 39 then .done else separatorAt p (bp + 3)
  else
    skipFillers p (43 - col) col

/-- Blocks delivered before the rest of a call. -/
def Outcome.after (delivered : List PfcBlock) (o : Outcome) : Outcome :=
  { o with delivered := delivered ++ o.delivered }

def openNext (next : Nat → Demux → Outcome) (dx : Demux) : Search → Outcome
  | .done => ⟨dx, [], true⟩
  | .lost => ⟨reset dx, [], false⟩
  | .found col => next col (openHeader dx)

/-- The rest of a pass behind the `if (dx->left > 0)` block, and the following
passes. -/
def proceed (p : Packet) (bp : Nat) (next : Nat → Demux → Outcome) : Collected → Outcome
  | .unfinished dx => ⟨dx, [], true⟩
  | .lost dx delivered => ⟨reset dx, delivered, false⟩
  | .header dx col => next col dx
  | .free dx col delivered => (openNext next dx (findSeparator p bp col)).after delivered

/-- The `while (col < 42)` loop. Each pass but the last consumes a byte. -/
def decodeLoop (callback : PfcBlock → Bool) (p : Packet) (bp : Nat) : Nat → Nat → Demux → Outcome
  | 0, _, dx => ⟨dx, [], true⟩
  | fuel + 1, col, dx =>
    if col ≥ 42 then
      ⟨dx, [], true⟩
    else
      proceed p bp (decodeLoop callback p bp fuel) (collect callback p col dx)

/-- `_vbi_pfc_demux_decode()`. -/
def decode (callback : PfcBlock → Bool) (dx : Demux) (p : Packet) : Outcome :=
  let bp := vbiUnham8 (p.byte 2) * 3
  if bp < 0 ∨ bp > 39 then ⟨reset dx, [], false⟩ else decodeLoop callback p bp.toNat 40 3 dx

/-- `n_packets` as encoded in the subpage number. -/
def announced (subno : Nat) : Nat := subno / 16 % 8 + (subno / 512 &&& 0x18)

/-- The branch of `vbi_pfc_demux_feed()` for packet 0. -/
def feedHeader (dx : Demux) (p : Packet) (magazine : Nat) : Outcome :=
  let pgno := Int.lor magazine (vbiUnham16p (p.byte 2) (p.byte 3))
  if pgno < 0 then
    ⟨reset dx, [], false⟩
  else if pgno ≠ dx.block.pgno then
    ⟨{ dx with nPackets := 0 }, [], true⟩
  else
    let subno := vbiUnham16p (p.byte 4) (p.byte 5) + vbiUnham16p (p.byte 6) (p.byte 7) * 256
    if subno < 0 then
      ⟨reset dx, [], false⟩
    else
      let subno := subno.toNat
      if subno / 256 % 16 ≠ dx.block.stream then
        ⟨{ dx with nPackets := 0 }, [], true⟩
      else
        let ci := subno % 16
        let dx := if ci ≠ dx.ci then reset dx else dx
        ⟨{ dx with ci := (ci + 1) % 16, packet := 1, nPackets := announced subno }, [], true⟩

def magazineOf (pmag : Nat) : Nat := if pmag % 8 = 0 then 0x800 else pmag % 8 * 256

/-- `vbi_pfc_demux_feed()`. -/
def feed (callback : PfcBlock → Bool) (dx : Demux) (p : Packet) : Outcome :=
  let pmag := vbiUnham16p (p.byte 0) (p.byte 1)
  if pmag < 0 then
    ⟨reset dx, [], false⟩
  else
    let magazine := magazineOf pmag.toNat
    let packet := pmag.toNat / 8
    if packet = 0 then
      feedHeader dx p magazine
    else if (magazine ^^^ dx.block.pgno) &&& 0xF00 ≠ 0 then
      ⟨dx, [], true⟩
    else if dx.nPackets = 0 then
      ⟨dx, [], true⟩
    else if packet > 25 then
      ⟨dx, [], true⟩
    else if packet ≠ dx.packet ∨ packet > dx.nPackets then
      ⟨reset dx, [], true⟩
    else
      decode callback { dx with packet := packet + 1 } p

/-- Successive calls, whatever they return. -/
def feedAll (callback : PfcBlock → Bool) : Demux → List Packet → Demux × List PfcBlock
  | dx, [] => (dx, [])
  | dx, p :: ps =>
    let r := feed callback dx p
    let rest := feedAll callback r.dx ps
    (rest.1, r.delivered ++ rest.2)

/-- Write position and remaining count stay in the block buffer. -/
structure Bounded (dx : Demux) : Prop where
  size : dx.block.block.length = 2048
  room : dx.bi + dx.left ≤ 2048

theorem reset_bounded {dx : Demux} (h : Bounded dx) : Bounded (reset dx) :=
  ⟨h.size, Nat.zero_le _⟩

theorem init_bounded (pgno stream : Nat) : Bounded (init pgno stream) := by
  constructor
  · exact List.length_replicate
  · exact Nat.zero_le _

theorem store_bounded {dx : Demux} (h : Bounded dx) {bytes : List UInt8}
    (hle : bytes.length ≤ dx.left) : Bounded (store dx bytes) := by
  have hsize := h.size
  have hroom := h.room
  constructor
  · simp only [store, List.length_append, List.length_take, List.length_drop]
    omega
  · simp only [store]
    omega

theorem structureHeader_le (block : List UInt8) : structureHeader block ≤ 65535 := by
  have low := vbiUnham16p_le (block.getD 0 0) (block.getD 1 0)
  have high := vbiUnham16p_le (block.getD 2 0) (block.getD 3 0)
  simp only [structureHeader]
  omega

theorem openData_bounded {dx : Demux} (h : Bounded dx) {sh : Nat} (hsh : sh ≤ 65535) :
    Bounded (openData dx sh) := by
  refine ⟨h.size, ?_⟩
  simp only [openData]
  omega

theorem openHeader_bounded {dx : Demux} (h : Bounded dx) : Bounded (openHeader dx) :=
  ⟨h.size, by simp only [openHeader]; omega⟩

/-- The state a pass continues or ends with. -/
def Collected.dx : Collected → Demux
  | .free dx _ _ => dx
  | .header dx _ => dx
  | .unfinished dx => dx
  | .lost dx _ => dx

theorem interpret_bounded (callback : PfcBlock → Bool) {dx : Demux} (h : Bounded dx) (col : Nat) :
    Bounded (interpret callback dx col).dx := by
  have hle := structureHeader_le dx.block.block
  unfold interpret
  dsimp only
  split
  · split
    · exact h
    · exact openData_bounded h (by omega)
  · split
    · exact h
    · exact h

theorem collect_bounded (callback : PfcBlock → Bool) (p : Packet) (col : Nat) {dx : Demux}
    (h : Bounded dx) : Bounded (collect callback p col dx).dx := by
  have hstore : Bounded (store dx ((p.buffer.drop col).take (min dx.left (42 - col)))) := by
    refine store_bounded h ?_
    rw [List.length_take]
    omega
  unfold collect
  dsimp only
  split
  · exact h
  · split
    · exact hstore
    · exact interpret_bounded callback hstore _

theorem proceed_bounded (p : Packet) (bp : Nat) {next : Nat → Demux → Outcome}
    (hnext : ∀ col dx, Bounded dx → Bounded (next col dx).dx) {c : Collected} (h : Bounded c.dx) :
    Bounded (proceed p bp next c).dx := by
  cases c with
  | unfinished dx => exact h
  | lost dx delivered => exact reset_bounded h
  | header dx col => exact hnext col dx h
  | free dx col delivered =>
    change Bounded (openNext next dx (findSeparator p bp col)).dx
    cases findSeparator p bp col with
    | done => exact h
    | lost => exact reset_bounded h
    | found col => exact hnext col _ (openHeader_bounded h)

theorem decodeLoop_bounded (callback : PfcBlock → Bool) (p : Packet) (bp fuel col : Nat)
    {dx : Demux} (h : Bounded dx) : Bounded (decodeLoop callback p bp fuel col dx).dx := by
  induction fuel generalizing col dx with
  | zero => exact h
  | succ fuel ih =>
    rw [decodeLoop]
    split
    · exact h
    · exact proceed_bounded p bp (fun col _ hdx => ih col hdx) (collect_bounded callback p col h)

theorem decode_bounded (callback : PfcBlock → Bool) {dx : Demux} (h : Bounded dx) (p : Packet) :
    Bounded (decode callback dx p).dx := by
  unfold decode
  dsimp only
  split
  · exact reset_bounded h
  · exact decodeLoop_bounded callback p _ _ _ h

theorem feedHeader_bounded {dx : Demux} (h : Bounded dx) (p : Packet) (magazine : Nat) :
    Bounded (feedHeader dx p magazine).dx := by
  have hreset := reset_bounded h
  unfold feedHeader
  dsimp only
  split
  · exact hreset
  split
  · exact ⟨h.size, h.room⟩
  split
  · exact hreset
  split
  · exact ⟨h.size, h.room⟩
  · constructor
    · dsimp only
      split
      · exact hreset.size
      · exact h.size
    · dsimp only
      split
      · exact hreset.room
      · exact h.room

/-- No packet, valid or not, makes the demultiplexer leave its buffer. -/
theorem feed_bounded (callback : PfcBlock → Bool) {dx : Demux} (h : Bounded dx) (p : Packet) :
    Bounded (feed callback dx p).dx := by
  have hreset := reset_bounded h
  unfold feed
  dsimp only
  split
  · exact hreset
  split
  · exact feedHeader_bounded h p _
  split
  · exact h
  split
  · exact h
  split
  · exact h
  split
  · exact hreset
  · have hnext : Bounded { dx with packet := (vbiUnham16p (p.byte 0) (p.byte 1)).toNat / 8 + 1 } :=
      ⟨h.size, h.room⟩
    exact decode_bounded callback hnext p

theorem feedAll_bounded (callback : PfcBlock → Bool) {dx : Demux} (h : Bounded dx)
    (packets : List Packet) : Bounded (feedAll callback dx packets).1 := by
  induction packets generalizing dx with
  | nil => exact h
  | cons p ps ih => exact ih (feed_bounded callback h p)

end PfcDemux
