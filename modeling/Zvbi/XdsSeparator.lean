import Mathlib.Data.Option.Basic
import Zvbi.GuardedRuns
import Zvbi.Hamming

/-!
# The XDS separator of the caption decoder

Extended Data Service packets arrive as byte pairs in the second field and may
be interleaved. Each packet is collected in its own element of a table, and a
pointer names the element the next pair belongs to. The pointer is modelled by
its distance from the first element, from which the source recovers class and
type by division. A step without a result is an access outside the table or
outside a packet buffer, or a failed assertion.
-/

namespace XdsSeparator
open Hamming GuardedRuns

/-- `elements(cc->sub_packet)`. -/
def classes : Nat := 4

/-- `elements(cc->sub_packet[0])`. -/
def types : Nat := 0x18

structure XdsSubPacket where
  count : Nat
  chksum : Nat
  buffer : Vector UInt8 32
  deriving DecidableEq

/-- The part of `struct caption` that belongs to the separator. -/
structure Xds where
  subPacket : Vector XdsSubPacket (classes * types)
  currSp : Option Nat
  xds : Bool
  deriving DecidableEq

/-- Arguments of one `xds_decoder()` call. -/
structure DecoderCall where
  cls : Nat
  type : Nat
  buffer : Vector UInt8 32
  length : Nat
  deriving DecidableEq

/-- All zero, as after `vbi_caption_init()`. -/
def initial : Xds :=
  ⟨Vector.replicate _ ⟨0, 0, Vector.replicate _ 0⟩, none, false⟩

/-- `&cc->sub_packet[cls][type]`. -/
def element (cls type : Nat) : Option Nat :=
  if cls < classes ∧ type < types then some (cls * types + type) else none

def setSp (cc : Xds) (n : Nat) (sp : XdsSubPacket) : Xds :=
  { cc with subPacket := cc.subPacket.setIfInBounds n sp }

/-- `sp->buffer[i] = c`. -/
def store (sp : XdsSubPacket) (i : Int) (c : UInt8) : Option XdsSubPacket :=
  if 0 ≤ i ∧ i < 32 then some { sp with buffer := sp.buffer.setIfInBounds i.toNat c } else none

/-- Start (odd `c1`) or continuation of a packet. -/
def select (cc : Xds) (c1 c2 : Nat) : Option Xds :=
  let cls := (c1 - 1) / 2
  if cls > classes ∨ c2 > types then
    some { cc with currSp := none }
  else do
    let n ← element cls c2
    let sp ← cc.subPacket[n]?
    if c1 % 2 = 1 then
      some (setSp { cc with currSp := some n } n { sp with chksum := c1 + c2, count := 2 })
    else if sp.count = 0 then
      some { cc with currSp := none }
    else
      some { cc with currSp := some n }

def finish (cc : Xds) (n : Nat) (c1 c2 : Nat) : Option (Xds × Option DecoderCall) := do
  let sp ← cc.subPacket[n]?
  let closed := setSp { cc with currSp := none } n { sp with count := 0, chksum := 0 }
  if (sp.chksum + c1 + c2) % 128 ≠ 0 then
    some (closed, none)
  else if sp.count ≤ 2 then
    some (closed, none)
  else if sp.count - 2 ≤ 32 then
    some (closed, some ⟨n / types, n % types, sp.buffer, sp.count - 2⟩)
  else
    none

def append (cc : Xds) (n : Nat) (c1 c2 : UInt8) : Option Xds := do
  let sp ← cc.subPacket[n]?
  if sp.count ≥ 32 + 2 then
    some (setSp { cc with currSp := none } n { sp with count := 0, chksum := 0 })
  else
    let sp1 ← store sp (sp.count - 2) c1
    let sp2 ← store sp1 (sp.count - 1) c2
    some (setSp cc n { sp2 with
      chksum := sp.chksum + c1.toNat + c2.toNat
      count := sp.count + 1 + if c2 ≠ 0 then 1 else 0 })

def xdsSeparator (cc : Xds) (b0 b1 : UInt8) : Option (Xds × Option DecoderCall) :=
  let c1 := vbiUnpar8 b0
  let c2 := vbiUnpar8 b1
  if c1 < 0 ∨ c2 < 0 then
    match cc.currSp with
    | none => some (cc, none)
    | some n => do
      let sp ← cc.subPacket[n]?
      -- the source clears its local copy of the pointer, not `cc->curr_sp`
      some (setSp cc n { sp with count := 0, chksum := 0 }, none)
  else if 1 ≤ c1 ∧ c1 ≤ 14 then
    (select cc c1.toNat c2.toNat).map fun t => (t, none)
  else if c1 = 15 then
    match cc.currSp with
    | none => some (cc, none)
    | some n => finish cc n c1.toNat c2.toNat
  else if 0x20 ≤ c1 then
    match cc.currSp with
    | none => some (cc, none)
    | some n => (append cc n (b0 &&& 127) (b1 &&& 127)).map fun t => (t, none)
  else
    none

/-- How `vbi_decode_caption()` treats a pair of line 284. The second result is
false if the pair is not consumed here but goes to the caption decoder. -/
def decodeLine284 (cc : Xds) (b0 b1 : UInt8) : Option (Xds × Option DecoderCall × Bool) :=
  let c1 := b0 &&& 0x7F
  if 0 ≤ vbiUnpar8 b0 then
    if c1 = 0 then
      some (cc, none, true)
    else if c1 ≤ 0x0F then
      (xdsSeparator cc b0 b1).map fun r => ({ r.1 with xds := c1 != 15 }, r.2, true)
    else if c1 ≤ 0x1F then
      some ({ cc with xds := false }, none, false)
    else if cc.xds then
      (xdsSeparator cc b0 b1).map fun r => (r.1, r.2, true)
    else
      some (cc, none, false)
  else if cc.xds then
    (xdsSeparator cc b0 b1).map fun r => (r.1, r.2, true)
  else
    some (cc, none, false)

/-- One pair of the second field, seen by the separator only. -/
def feed (cc : Xds) (pair : UInt8 × UInt8) : Option Xds :=
  (decodeLine284 cc pair.1 pair.2).map fun r => r.1

/-- What is promised of the current packet: it is an element of the table and
leaves its next two characters room in the buffer. -/
def CurrentInBounds (cc : Xds) : Prop :=
  ∀ n ∈ cc.currSp, ∃ sp ∈ cc.subPacket[n]?, 2 ≤ sp.count ∧ sp.count ≤ 34

instance (cc : Xds) : Decidable (CurrentInBounds cc) :=
  inferInstanceAs (Decidable (∀ n ∈ cc.currSp, ∃ sp ∈ cc.subPacket[n]?, 2 ≤ sp.count ∧ sp.count ≤ 34))

/-- A packet can be interrupted and resumed, so the elements that are not
current must stay usable as well. -/
structure Bounded (cc : Xds) : Prop where
  current : CurrentInBounds cc
  resting : ∀ (n : Nat) (sp : XdsSubPacket), cc.subPacket[n]? = some sp →
    sp.count = 0 ∨ 2 ≤ sp.count ∧ sp.count ≤ 34

theorem initial_bounded : Bounded initial := by
  constructor
  · decide +kernel
  · intro n sp hsp
    simp only [initial, Vector.getElem?_replicate] at hsp
    split at hsp
    · exact Or.inl (by rw [← Option.some.inj hsp])
    · cases hsp

variable {cc : Xds} {n : Nat} {sp : XdsSubPacket}

theorem mem_subPacket_setSp {m : Nat} {p : XdsSubPacket} (h : p ∈ (setSp cc n sp).subPacket[m]?) :
    p = sp ∨ p ∈ cc.subPacket[m]? := by
  simp only [setSp, Vector.getElem?_setIfInBounds, Option.mem_def] at h
  split at h
  · split at h
    · exact Or.inl (Option.some.inj h).symm
    · cases h
  · exact Or.inr h

variable {old : XdsSubPacket} {b0 b1 : UInt8}

theorem subPacket_setSp_self (h : cc.subPacket[n]? = some old) :
    (setSp cc n sp).subPacket[n]? = some sp := by
  have hn : n < classes * types := (Vector.getElem?_eq_some_iff.mp h).1
  simp only [setSp, Vector.getElem?_setIfInBounds_self, if_pos hn]

/-- Rewriting one element keeps the table usable if the new element is, and if
the current element is either left alone or the new one. -/
theorem setSp_bounded (hcc : Bounded cc) (hold : cc.subPacket[n]? = some old) (cur : Option Nat)
    (hsp : sp.count = 0 ∨ 2 ≤ sp.count ∧ sp.count ≤ 34)
    (hcur : cur = none ∨ cur = some n ∧ 2 ≤ sp.count) :
    Bounded (setSp { cc with currSp := cur } n sp) := by
  constructor
  · intro m hm
    rcases hcur with rfl | ⟨rfl, hlow⟩
    · cases hm
    · have hmn : n = m := Option.some.inj hm
      subst hmn
      have hself : (setSp { cc with currSp := some n } n sp).subPacket[n]? = some sp :=
        subPacket_setSp_self hold
      exact ⟨sp, hself, hlow, by omega⟩
  · intro m p hp
    rcases mem_subPacket_setSp hp with rfl | hp
    · exact hsp
    · exact hcc.resting m p hp

theorem bounded_none (hcc : Bounded cc) : Bounded { cc with currSp := none } :=
  ⟨fun _ h => (Option.not_mem_none _ h).elim, hcc.resting⟩

theorem element_spec {cls type : Nat} (hc : cls < classes) (ht : type < types) :
    ∃ n, element cls type = some n ∧ n < classes * types := by
  refine ⟨cls * types + type, by simp [element, hc, ht], ?_⟩
  simp only [classes, types] at *
  omega

/-- Start and continuation are safe for valid packets, and for those the code
recognizes as invalid. -/
def Selectable (c1 c2 : Nat) : Prop :=
  (c1 - 1) / 2 < classes ∧ c2 < types ∨ (c1 - 1) / 2 > classes ∨ c2 > types

theorem select_keeps (hcc : Bounded cc) {c1 c2 : Nat} (h : Selectable c1 c2) :
    ∃ t, select cc c1 c2 = some t ∧ Bounded t := by
  by_cases hbad : (c1 - 1) / 2 > classes ∨ c2 > types
  · exact ⟨_, by simp only [select, if_pos hbad], bounded_none hcc⟩
  have hvalid : (c1 - 1) / 2 < classes ∧ c2 < types := by
    rcases h with h | h
    · exact h
    · exact absurd h hbad
  obtain ⟨n, hn, hlt⟩ := element_spec hvalid.1 hvalid.2
  have hsp : cc.subPacket[n]? = some cc.subPacket[n] := Vector.getElem?_eq_getElem hlt
  simp only [select, if_neg hbad, hn, hsp, Option.bind_eq_bind, Option.bind_some]
  by_cases hstart : c1 % 2 = 1
  · rw [if_pos hstart]
    exact ⟨_, rfl, setSp_bounded hcc hsp (some n) (Or.inr ⟨Nat.le_refl 2, by dsimp only; omega⟩)
      (Or.inr ⟨rfl, Nat.le_refl 2⟩)⟩
  · rw [if_neg hstart]
    by_cases hzero : cc.subPacket[n].count = 0
    · rw [if_pos hzero]
      exact ⟨_, rfl, bounded_none hcc⟩
    · rw [if_neg hzero]
      refine ⟨_, rfl, ?_, hcc.resting⟩
      intro m hm
      have hmn : n = m := Option.some.inj hm
      subst hmn
      rcases hcc.resting n _ hsp with hc | hc
      · exact absurd hc hzero
      · exact ⟨_, hsp, hc⟩

theorem finish_keeps (hcc : Bounded cc) (hn : cc.currSp = some n) (c1 c2 : Nat) :
    ∃ t call, finish cc n c1 c2 = some (t, call) ∧ Bounded t ∧
      ∀ c ∈ call, 1 ≤ c.length ∧ c.length ≤ 32 ∧ c.cls < classes ∧ c.type < types := by
  obtain ⟨sp, hsp, hlow, hhigh⟩ := hcc.current n hn
  have hlt : n < classes * types := (Vector.getElem?_eq_some_iff.mp hsp).1
  have hclosed : Bounded (setSp { cc with currSp := none } n { sp with count := 0, chksum := 0 }) :=
    setSp_bounded hcc hsp none (Or.inl rfl) (Or.inl rfl)
  simp only [finish, Option.mem_def.mp hsp, Option.bind_eq_bind, Option.bind_some]
  by_cases hsum : (sp.chksum + c1 + c2) % 128 = 0
  · by_cases hempty : sp.count ≤ 2
    · exact ⟨_, none, by rw [if_neg (by simpa using hsum), if_pos hempty], hclosed, by simp⟩
    · refine ⟨_, _, by rw [if_neg (by simpa using hsum), if_neg hempty, if_pos (by omega)],
        hclosed, ?_⟩
      intro c hc
      have hce := Option.some.inj hc
      subst hce
      refine ⟨by dsimp only; omega, by dsimp only; omega, ?_, Nat.mod_lt _ (by decide)⟩
      exact Nat.div_lt_of_lt_mul (by rwa [Nat.mul_comm])
  · exact ⟨_, none, by rw [if_pos hsum], hclosed, by simp⟩

/-- The overflow check only looks for a full buffer, so a packet with one free
byte must not receive another pair. -/
theorem append_keeps (hcc : Bounded cc) (hn : cc.currSp = some n)
    (room : ∀ sp ∈ cc.subPacket[n]?, sp.count ≠ 33) (c1 c2 : UInt8) :
    ∃ t, append cc n c1 c2 = some t ∧ Bounded t := by
  obtain ⟨sp, hsp, hlow, hhigh⟩ := hcc.current n hn
  have hroom := room sp hsp
  simp only [append, Option.mem_def.mp hsp, Option.bind_eq_bind, Option.bind_some]
  by_cases hfull : sp.count ≥ 32 + 2
  · rw [if_pos hfull]
    exact ⟨_, rfl, setSp_bounded hcc hsp none (Or.inl rfl) (Or.inl rfl)⟩
  · rw [if_neg hfull, store, if_pos (by omega), Option.bind_some, store, if_pos (by omega),
      Option.bind_some]
    have hnext : 2 ≤ sp.count + 1 + (if c2 ≠ 0 then 1 else 0) ∧
        sp.count + 1 + (if c2 ≠ 0 then 1 else 0) ≤ 34 := by
      split <;> omega
    have hcur : { cc with currSp := some n } = cc := by rw [← hn]
    refine ⟨_, rfl, ?_⟩
    rw [← hcur]
    exact setSp_bounded hcc hsp (some n) (Or.inr hnext) (Or.inr ⟨rfl, hnext.1⟩)

/-- The pair is handed to `xds_separator()`. -/
def Routed (cc : Xds) (b0 : UInt8) : Prop :=
  if 0 ≤ vbiUnpar8 b0 then
    b0 &&& 0x7F ≠ 0 ∧ (b0 &&& 0x7F ≤ 0x0F ∨ ¬ b0 &&& 0x7F ≤ 0x1F ∧ cc.xds = true)
  else
    cc.xds = true

/-- The pair does not reach one of the slips of `xds_separator()`: a parity
error while a packet is current, which leaves the pointer of the discarded
packet behind; a class or type one past the table; a pair for a packet with
room for one byte. -/
def Harmless (cc : Xds) (pair : UInt8 × UInt8) : Prop :=
  let c1 := vbiUnpar8 pair.1
  let c2 := vbiUnpar8 pair.2
  Routed cc pair.1 →
    if c1 < 0 ∨ c2 < 0 then cc.currSp = none
    else if c1 ≤ 14 then Selectable c1.toNat c2.toNat
    else if c1 = 15 then True
    else ∀ n ∈ cc.currSp, ∀ sp ∈ cc.subPacket[n]?, sp.count ≠ 33

instance (c1 c2 : Nat) : Decidable (Selectable c1 c2) :=
  inferInstanceAs (Decidable (_ ∨ _))

instance (cc : Xds) (b0 : UInt8) : Decidable (Routed cc b0) :=
  inferInstanceAs (Decidable (ite _ _ _))

instance (cc : Xds) (pair : UInt8 × UInt8) : Decidable (Harmless cc pair) :=
  inferInstanceAs (Decidable (Routed cc pair.1 → ite _ _ _))

theorem xdsSeparator_keeps (hcc : Bounded cc) (routed : Routed cc b0) (h : Harmless cc (b0, b1)) :
    ∃ t call, xdsSeparator cc b0 b1 = some (t, call) ∧ Bounded t ∧
      ∀ c ∈ call, 1 ≤ c.length ∧ c.length ≤ 32 ∧ c.cls < classes ∧ c.type < types := by
  replace h := h routed
  dsimp only at h
  unfold xdsSeparator
  dsimp only
  by_cases herr : vbiUnpar8 b0 < 0 ∨ vbiUnpar8 b1 < 0
  · rw [if_pos herr] at h ⊢
    rw [h]
    exact ⟨cc, none, rfl, hcc, by simp⟩
  have hb0 : 0 ≤ vbiUnpar8 b0 := by omega
  have hc1 := vbiUnpar8_of_nonneg b0 hb0
  unfold Routed at routed
  rw [if_pos hb0] at routed
  simp only [UInt8.le_iff_toNat_le, ne_eq, ← UInt8.toNat_inj] at routed
  change (b0 &&& 127).toNat ≠ 0 ∧ ((b0 &&& 127).toNat ≤ 15 ∨ ¬ (b0 &&& 127).toNat ≤ 31 ∧ _) at routed
  rw [if_neg herr] at h ⊢
  by_cases hsel : vbiUnpar8 b0 ≤ 14
  · rw [if_pos hsel] at h
    rw [if_pos ⟨by omega, hsel⟩]
    obtain ⟨t, ht, hbt⟩ := select_keeps hcc h
    exact ⟨t, none, by rw [ht]; rfl, hbt, by simp⟩
  rw [if_neg hsel] at h
  rw [if_neg (by omega)]
  by_cases hend : vbiUnpar8 b0 = 15
  · rw [if_pos hend]
    cases hcur : cc.currSp with
    | none => exact ⟨cc, none, rfl, hcc, by simp⟩
    | some n => exact finish_keeps hcc hcur _ _
  · rw [if_neg hend] at h ⊢
    rw [if_pos (by omega)]
    cases hcur : cc.currSp with
    | none => exact ⟨cc, none, rfl, hcc, by simp⟩
    | some n =>
      obtain ⟨t, ht, hbt⟩ := append_keeps hcc hcur (h n hcur) (b0 &&& 127) (b1 &&& 127)
      exact ⟨t, none, by simp only [ht, Option.map_some], hbt, by simp⟩

theorem bounded_xds (hcc : Bounded cc) (on : Bool) : Bounded { cc with xds := on } :=
  ⟨hcc.current, hcc.resting⟩

theorem decodeLine284_keeps (hcc : Bounded cc) (h : Harmless cc (b0, b1)) :
    ∃ t call consumed, decodeLine284 cc b0 b1 = some (t, call, consumed) ∧ Bounded t ∧
      ∀ c ∈ call, 1 ≤ c.length ∧ c.length ≤ 32 ∧ c.cls < classes ∧ c.type < types := by
  by_cases routed : Routed cc b0
  · obtain ⟨t, call, hstep, hbt, hcall⟩ := xdsSeparator_keeps hcc routed h
    unfold Routed at routed
    unfold decodeLine284
    dsimp only
    split at routed
    · rw [if_pos ‹_›, if_neg routed.1]
      by_cases hlow : b0 &&& 0x7F ≤ 0x0F
      · exact ⟨_, call, true, by rw [if_pos hlow, hstep]; rfl, bounded_xds hbt _, hcall⟩
      · have hon := routed.2.resolve_left hlow
        exact ⟨t, call, true, by rw [if_neg hlow, if_neg hon.1, if_pos hon.2, hstep]; rfl, hbt, hcall⟩
    · exact ⟨t, call, true, by rw [if_neg ‹_›, if_pos routed, hstep]; rfl, hbt, hcall⟩
  · unfold Routed at routed
    unfold decodeLine284
    dsimp only
    split at routed
    · rw [if_pos ‹_›]
      by_cases hzero : b0 &&& 0x7F = 0
      · exact ⟨cc, none, true, by rw [if_pos hzero], hcc, by simp⟩
      · rw [if_neg hzero]
        have hhigh : ¬ b0 &&& 0x7F ≤ 0x0F := fun hlow => routed ⟨hzero, Or.inl hlow⟩
        rw [if_neg hhigh]
        by_cases hctl : b0 &&& 0x7F ≤ 0x1F
        · exact ⟨_, none, false, by rw [if_pos hctl], bounded_xds hcc _, by simp⟩
        · have hoff : ¬ cc.xds = true := fun hon => routed ⟨hzero, Or.inr ⟨hctl, hon⟩⟩
          exact ⟨cc, none, false, by rw [if_neg hctl, if_neg hoff], hcc, by simp⟩
    · exact ⟨cc, none, false, by rw [if_neg ‹_›, if_neg routed], hcc, by simp⟩

theorem feed_keeps (hcc : Bounded cc) (pair : UInt8 × UInt8) (h : Harmless cc pair) :
    ∃ t, feed cc pair = some t ∧ Bounded t := by
  obtain ⟨b0, b1⟩ := pair
  obtain ⟨t, call, consumed, hstep, hbt, -⟩ := decodeLine284_keeps hcc h
  exact ⟨t, by simp only [feed, hstep, Option.map_some], hbt⟩

/-- No harmless sequence of second field pairs faults, so every store stays in
its packet buffer and `xds_decoder()` gets 1 to 32 bytes, and the current
packet is always an element of the table with a count of 2 to 34. -/
theorem xds_current_in_bounds (pairs : List (UInt8 × UInt8))
    (harmless : Permitted feed Harmless initial pairs) :
    ∃ cc, run feed initial pairs = some cc ∧ CurrentInBounds cc := by
  obtain ⟨cc, hrun, hcc⟩ := run_keeps Bounded (fun _ pair hs hok => feed_keeps hs pair hok)
    initial_bounded harmless
  exact ⟨cc, hrun, hcc.current⟩

/-- One packet interrupted by another one and resumed. -/
theorem xds_current_in_bounds_interleaved :
    ∃ cc, run feed initial [(0x01, 0x01), (0x20, 0x20), (0x83, 0x01), (0x20, 0x20),
      (0x02, 0x01), (0x20, 0x80)] = some cc ∧ CurrentInBounds cc :=
  xds_current_in_bounds _ (by decide +kernel)

/-- A parity error leaves a current packet with count zero, and the next pair
is stored before its buffer. Class 4, type 0x18 and a second pair for a packet
with one free byte leave the table or the buffer as well. -/
theorem xds_current_out_of_bounds :
    (∃ cc, run feed initial [(0x01, 0x01), (0x00, 0x00)] = some cc ∧ ¬ CurrentInBounds cc) ∧
    run feed initial [(0x01, 0x01), (0x00, 0x00), (0x20, 0x20)] = none ∧
    run feed initial [(0x89, 0x01)] = none ∧
    run feed initial [(0x01, 0x98)] = none ∧
    run feed initial ((0x01, 0x01) :: List.replicate 15 (0x20, 0x20) ++
      [(0x20, 0x80), (0x20, 0x20)]) = none := by
  refine ⟨⟨_, rfl, ?_⟩, ?_⟩
  · decide +kernel
  · decide +kernel

end XdsSeparator
