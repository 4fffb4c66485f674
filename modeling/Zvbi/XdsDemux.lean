import Mathlib.Data.Vector.Basic
import Zvbi.GuardedRuns
import Zvbi.Hamming

/-!
# The Extended Data Service demultiplexer

Byte pairs of line 284 are collected in a table of subpackets. Class and type of
a packet header select the element, types from 0x40 on share elements with the
types from 0x10 on. The table is addressed as in memory, by the distance from its
first element, so an index one past the types of a class is the first element
of the next class. A step without a result is an access outside the table or
outside a packet buffer.
-/

namespace XdsDemux
open Hamming

def vbiXdsMaxClasses : Nat := 7

def vbiXdsMaxSubclasses : Nat := 0x18

def vbiXdsClassMisc : Nat := 3

/-- `_vbi_xds_subpacket`. -/
structure XdsSubpacket where
  buffer : Vector UInt8 32
  count : Nat
  checksum : Nat
  deriving DecidableEq

/-- `vbi_xds_packet`. -/
structure XdsPacket where
  xdsClass : Nat
  xdsSubclass : Nat
  bufferSize : Nat
  buffer : Vector UInt8 36
  deriving DecidableEq

/-- `vbi_xds_demux`, less the callback. -/
structure Demux where
  subpacket : Vector XdsSubpacket (vbiXdsMaxClasses * vbiXdsMaxSubclasses)
  curr : XdsPacket
  currSp : Option Nat
  deriving DecidableEq

structure Outcome where
  xd : Demux
  delivered : Option XdsPacket
  ok : Bool
  deriving DecidableEq

/-- `vbi_xds_demux_reset()`. -/
def reset (xd : Demux) : Demux :=
  { xd with
    subpacket := xd.subpacket.map fun sp => { sp with count := 0 }
    currSp := none }

/-- All zero, as `calloc()` returns it. -/
def zero : Demux :=
  ⟨Vector.replicate _ ⟨Vector.replicate _ 0, 0, 0⟩, ⟨0, 0, 0, Vector.replicate _ 0⟩, none⟩

def setSp (xd : Demux) (n : Nat) (sp : XdsSubpacket) : Demux :=
  { xd with subpacket := xd.subpacket.setIfInBounds n sp }

def XdsSubpacket.clear (sp : XdsSubpacket) : XdsSubpacket := { sp with count := 0, checksum := 0 }

def discard (xd : Demux) (sp : Option Nat) : Option Demux :=
  match sp with
  | none => some { xd with currSp := none }
  | some n => (xd.subpacket[n]?).map fun p => setSp { xd with currSp := none } n p.clear

def column (xdsSubclass : Nat) : Nat :=
  if xdsSubclass ≥ 0x40 then xdsSubclass + 0x10 - 0x40 else xdsSubclass

def Known (xdsClass xdsSubclass : Nat) : Prop :=
  ¬ (xdsClass > vbiXdsClassMisc ∨ column xdsSubclass > vbiXdsMaxSubclasses)

instance (xdsClass xdsSubclass : Nat) : Decidable (Known xdsClass xdsSubclass) :=
  inferInstanceAs (Decidable (¬ _))

/-- `&xd->subpacket[xds_class][i]`. -/
def element (xdsClass xdsSubclass : Nat) : Nat :=
  xdsClass * vbiXdsMaxSubclasses + column xdsSubclass

/-- Packet header. An unknown one discards the packet it interrupts. -/
def header (xd : Demux) (c1 c2 : Nat) : Option Demux :=
  let xdsClass := (c1 - 1) / 2
  if ¬ Known xdsClass c2 then
    discard xd xd.currSp
  else do
    let n := element xdsClass c2
    let sp ← xd.subpacket[n]?
    let xd := { xd with
      currSp := some n
      curr := { xd.curr with xdsClass := xdsClass, xdsSubclass := c2 } }
    if c1 % 2 = 1 then
      some (setSp xd n { sp with checksum := c1 + c2, count := 2 })
    else if sp.count = 0 then
      discard xd (some n)
    else
      some xd

/-- `memcpy (xd->curr.buffer, sp->buffer, 32)`. -/
def copy (old : Vector UInt8 36) (buffer : Vector UInt8 32) : Vector UInt8 36 :=
  Vector.ofFn fun i => if h : i.val < 32 then buffer[i.val] else old[i.val]

def complete (curr : XdsPacket) (sp : XdsSubpacket) : Option XdsPacket :=
  if sp.count - 2 < 36 then
    some { curr with
      bufferSize := sp.count - 2
      buffer := (copy curr.buffer sp.buffer).setIfInBounds (sp.count - 2) 0 }
  else
    none

def terminator (callback : XdsPacket → Bool) (xd : Demux) (n : Nat) (c1 c2 : Nat) :
    Option Outcome := do
  let sp ← xd.subpacket[n]?
  if (sp.checksum + c1 + c2) % 128 ≠ 0 then
    (discard xd (some n)).map fun xd => ⟨xd, none, true⟩
  else if sp.count ≤ 2 then
    (discard xd (some n)).map fun xd => ⟨xd, none, true⟩
  else do
    let curr ← complete xd.curr sp
    (discard { xd with curr := curr } (some n)).map fun xd => ⟨xd, some curr, callback curr⟩

/-- `sp->buffer[i] = c`. -/
def store (sp : XdsSubpacket) (i : Int) (c : UInt8) : Option XdsSubpacket :=
  if 0 ≤ i ∧ i < 32 then some { sp with buffer := sp.buffer.setIfInBounds i.toNat c } else none

def contents (xd : Demux) (n : Nat) (c1 c2 : Nat) : Option Demux := do
  let sp ← xd.subpacket[n]?
  if sp.count ≥ 32 + 2 then
    discard xd (some n)
  else
    let sp1 ← store sp (sp.count - 2) (UInt8.ofNat c1)
    let sp2 ← store sp1 (sp.count - 1) (UInt8.ofNat c2)
    some (setSp xd n { sp2 with
      checksum := sp.checksum + (c1 + c2)
      count := sp.count + (1 + if c2 ≠ 0 then 1 else 0) })

/-- The `switch` over the first character. -/
def dispatch (callback : XdsPacket → Bool) (xd : Demux) (c1 c2 : Nat) : Option Outcome :=
  if c1 = 0 then
    some ⟨xd, none, true⟩
  else if c1 ≤ 0x0E then
    (header xd c1 c2).map fun xd => ⟨xd, none, true⟩
  else if c1 = 0x0F then
    match xd.currSp with
    | none => some ⟨xd, none, true⟩
    | some n => terminator callback xd n c1 c2
  else if c1 ≤ 0x1F then
    some ⟨{ xd with currSp := none }, none, true⟩
  else
    match xd.currSp with
    | none => some ⟨xd, none, true⟩
    | some n => (contents xd n c1 c2).map fun xd => ⟨xd, none, true⟩

/-- `vbi_xds_demux_feed()`. -/
def feed (callback : XdsPacket → Bool) (xd : Demux) (pair : UInt8 × UInt8) : Option Outcome :=
  let c1 := vbiUnpar8 pair.1
  let c2 := vbiUnpar8 pair.2
  if c1 < 0 ∨ c2 < 0 then
    (discard xd xd.currSp).map fun xd => ⟨xd, none, false⟩
  else
    dispatch callback xd c1.toNat c2.toNat

end XdsDemux
