import Mathlib.Data.List.Basic
import Zvbi.Hamming

/-!
# The Independent Data Line format A demultiplexer

Packets of one data channel and service address carry user data with a
continuity index and may be repeated. A packet with a wrong checksum is given up
unless it announces a repeat. The demultiplexer remembers the next continuity
index and the next repeat it expects, -1 standing for any.
-/

namespace IdlDemux
open Hamming

def vbiIdlDataLost : Nat := 1

def vbiIdlDependent : Nat := 8

structure Packet where
  buffer : List UInt8
  length_eq : buffer.length = 42

/-- `buffer[i]`. -/
def Packet.byte (p : Packet) (i : Nat) : UInt8 := p.buffer.getD i 0

/-- `vbi_idl_demux`, less the format, which is A, and the callback. -/
structure Demux where
  channel : Int
  address : Int
  ci : Int
  ri : Int
  flags : Nat
  deriving DecidableEq

/-- User data and flags as the callback gets them. -/
structure Delivery where
  buffer : List UInt8
  flags : Nat
  deriving DecidableEq

structure Outcome where
  dx : Demux
  delivered : Option Delivery
  ok : Bool
  deriving DecidableEq

/-- `vbi_idl_demux_reset()`. The flags are not initialized. -/
def reset (dx : Demux) : Demux := { dx with ci := -1, ri := -1 }

/-- An element of `init_crc16_table()`, after as many of the eight steps. -/
def crcEntry (poly : Nat) : Nat → Nat → Nat → Nat
  | 0, crc, _ => crc
  | steps + 1, crc, val =>
    crcEntry poly steps ((crc >>> 1) ^^^ if (val ^^^ crc) % 2 = 1 then poly else 0) (val >>> 1)

def idlACrcTable (i : Nat) : Nat := crcEntry 0x8940 8 0 i

def crcStep (crc : Nat) (b : UInt8) : Nat :=
  (crc >>> 8) ^^^ idlACrcTable ((crc &&& 0xFF) ^^^ b.toNat)

/-- `FT_HAVE_RI`. -/
def haveRi (ft : Nat) : Bool := ft.testBit 1

/-- `FT_HAVE_CI`. -/
def haveCi (ft : Nat) : Bool := ft.testBit 2

/-- `FT_HAVE_DL`. -/
def haveDl (ft : Nat) : Bool := ft.testBit 3

def spa (p : Packet) (spaLength : Nat) : Int :=
  (List.range spaLength).foldl
    (fun spa i => Int.lor spa (vbiUnham8 (p.byte (4 + i)) * 16 ^ i)) 0

/-- Repeat indicator, continuity index, the checksum, zero if it is right, and
how many bytes of the packet were read. -/
structure Fields where
  ri : Nat
  ci : Nat
  crc : Nat
  index : Nat
  deriving DecidableEq

/-- An absent continuity index is implied by the checksum. -/
def fields (p : Packet) (ft spaLength : Nat) : Fields :=
  let ri := if haveRi ft then (p.byte (4 + spaLength)).toNat else 0
  let i := if haveRi ft then spaLength + 1 else spaLength
  let crc := (p.buffer.drop (4 + i)).foldl crcStep 0
  if haveCi ft then
    ⟨ri, (p.byte (4 + i)).toNat, crc, i + 1⟩
  else
    let ci := crc &&& 0xFF
    ⟨ri, ci, crc ^^^ (ci ||| ci <<< 8), i⟩

def skipDummyBytes : Nat → Nat → List UInt8 → List UInt8
  | _, _, [] => []
  | hist00, histFF, t :: ts =>
    let hist00 := if t = 0x00 then hist00 + 1 else hist00
    let histFF := if t = 0xFF then histFF + 1 else histFF
    if (hist00 ||| histFF) &&& 8 ≠ 0 then
      skipDummyBytes 0 0 ts
    else
      t :: skipDummyBytes hist00 histFF ts

def userData (p : Packet) (ft : Nat) (f : Fields) : List UInt8 :=
  let dl := if haveDl ft then min ((p.byte (4 + f.index)).toNat &&& 0x3F) (36 - (f.index + 1))
    else 36 - f.index
  let i := if haveDl ft then f.index + 1 else f.index
  skipDummyBytes (if f.ci = 0x00 then 1 else 0) (if f.ci = 0xFF then 1 else 0)
    ((p.buffer.drop (4 + i)).take dl)

/-- `dx->ci = -1; dx->ri = -1; dx->flags |= VBI_IDL_DATA_LOST`. -/
def lost (dx : Demux) : Demux :=
  { dx with ci := -1, ri := -1, flags := dx.flags ||| vbiIdlDataLost }

def repeatsLost (dx : Demux) (ri : Nat) : Bool :=
  decide (0 ≤ dx.ri) && (ri ^^^ dx.ri.toNat) &&& 0xF != 0

def unexpectedRepeat (dx : Demux) (ri : Nat) : Bool :=
  (decide (dx.ri < 0) || repeatsLost dx ri) && ri &&& 0xF != 0

/-- A packet which is new. The callback gets `dx->flags`, after the loss flag
was cleared, and not the local `flags`. -/
def deliver (callback : Delivery → Bool) (dx : Demux) (ci : Nat) (buffer : List UInt8) : Outcome :=
  let flags := if 0 ≤ dx.ci ∧ (ci ^^^ dx.ci.toNat) &&& 0xFF ≠ 0 then dx.flags ||| vbiIdlDataLost
    else dx.flags
  let dx := { dx with ci := ci + 1, flags := flags &&& (0xFFFFFFFF ^^^ vbiIdlDataLost) }
  let delivery := ⟨buffer, dx.flags⟩
  ⟨dx, some delivery, callback delivery⟩

/-- The part of `idl_a_demux_feed()` behind the address. -/
def receive (callback : Delivery → Bool) (dx : Demux) (p : Packet) (ft : Nat) (f : Fields) :
    Outcome :=
  if f.crc ≠ 0 then
    -- corrupt, and either given up or to be tried again
    if f.ri &&& 0x80 = 0 then ⟨lost dx, none, false⟩ else ⟨{ dx with ri := f.ri + 1 }, none, false⟩
  else
    let next := if repeatsLost dx f.ri then lost dx else dx
    if unexpectedRepeat dx f.ri then
      ⟨next, none, true⟩
    else
      deliver callback next f.ci (userData p ft f)

def idlADemuxFeed (callback : Delivery → Bool) (dx : Demux) (p : Packet) (ft : Nat) : Outcome :=
  let ial := vbiUnham8 (p.byte 3)
  if ial < 0 then
    ⟨dx, none, false⟩
  else
    let spaLength := ial.toNat &&& 7
    if spaLength = 7 then
      ⟨dx, none, true⟩
    else if spa p spaLength < 0 then
      ⟨dx, none, false⟩
    else if spa p spaLength ≠ dx.address then
      ⟨dx, none, true⟩
    else
      receive callback dx p ft (fields p ft spaLength)

/-- `vbi_idl_demux_feed()`. -/
def feed (callback : Delivery → Bool) (dx : Demux) (p : Packet) : Outcome :=
  let channel := vbiUnham8 (p.byte 0)
  let designation := vbiUnham8 (p.byte 1)
  if Int.lor channel designation < 0 then
    ⟨dx, none, false⟩
  else if 15 ≠ designation ∨ channel ≠ dx.channel then
    ⟨dx, none, true⟩
  else
    let ft := vbiUnham8 (p.byte 2)
    if ft < 0 then
      ⟨dx, none, false⟩
    else if ft.toNat &&& 1 = 0 then
      idlADemuxFeed callback dx p ft.toNat
    else
      ⟨dx, none, true⟩

end IdlDemux
