import Mathlib.Data.List.Basic
import Zvbi.Hamming

/-!
# The lines of a frame in VBI data units

A data unit is an identifier, a length and as many bytes, the first of which
tells the line. Units are taken from a PES packet in order. Line numbers ascend
within a frame, so a line number which does not opens the next one. Raw VBI data
is never requested, hence monochrome samples are skipped like stuffing.
-/

namespace DvbFrame
open Hamming

/-- `enum systems`. -/
inductive System
  | system525
  | system625

/-- The `VBI_ERR_` codes which do not need raw VBI data. -/
inductive Err
  | slicedBufferOverflow
  | duOverflow
  | duLength
  | duLineNumber
  | callback
  deriving DecidableEq

/-- The value of a result, zero standing for success. -/
def Err.code : Option Err → Int
  | none => 0
  | some .slicedBufferOverflow => 0x7080601
  | some .duOverflow => 0x7080901
  | some .duLength => 0x7080902
  | some .duLineNumber => 0x7080903
  | some .callback => 0x7080a00

/-- Why `extract_data_units()` stopped, a new frame being -1. -/
inductive Refusal
  | newFrame
  | failed (err : Err)

/-- `vbi_sliced`, with the bytes of `data` the service uses. -/
structure Sliced where
  id : Nat
  line : Nat
  data : List UInt8

def vbiSlicedTeletextB : Nat := 0x00000003
def vbiSlicedVps : Nat := 0x00000004
def vbiSlicedCaption625F1 : Nat := 0x00000008
def vbiSlicedCaption625F2 : Nat := 0x00000010
def vbiSlicedCaption525F1 : Nat := 0x00000020
def vbiSlicedCaption525F2 : Nat := 0x00000040
def vbiSlicedWss625 : Nat := 0x00000400
def vbiSlicedWssCpr1204 : Nat := 0x00000800
def vbiSlicedVpsF2 : Nat := 0x00001000

/-- `struct frame`, less raw data. A sliced buffer of this capacity is never
filled beyond its end. -/
structure Frame (capacity : Nat) where
  sliced : List Sliced
  sliced_le : sliced.length ≤ capacity
  lastField : Nat
  lastFieldLine : Nat
  lastFrameLine : Nat
  lastDataUnitId : UInt8
  nDataUnitsExtractedFromPacket : Nat

variable {capacity : Nat}

/-- The frame after `reset_frame()`. -/
def resetFrame : Frame capacity :=
  ⟨[], Nat.zero_le capacity, 0, 0, 0, 0, 0⟩

structure Address where
  field : Nat
  fieldLine : Nat
  frameLine : Nat

def fieldStart : System → Nat → Nat
  | _, 0 => 0
  | .system525, _ => 263
  | .system625, _ => 313

def lofpToLine (lofp : UInt8) (system : System) : Address :=
  let field := if lofp.toNat.testBit 5 then 0 else 1
  let lineOffset := lofp.toNat % 32
  if 0 < lineOffset then
    ⟨field, lineOffset, fieldStart system field + lineOffset⟩
  else
    ⟨field, 0, 0⟩

/-- A frame, and the slot `line_address()` allocates in it. -/
structure Slot (capacity : Nat) where
  frame : Frame capacity
  address : Address
  room : frame.sliced.length < capacity

def Slot.store (s : Slot capacity) (id : Nat) (data : List UInt8) : Frame capacity :=
  { s.frame with
    sliced := s.frame.sliced ++ [⟨id, s.address.frameLine, data⟩]
    sliced_le := by
      rw [List.length_append]
      exact s.room }

@[simp] theorem Slot.store_sliced (s : Slot capacity) (id : Nat) (data : List UInt8) :
    (s.store id data).sliced = s.frame.sliced ++ [⟨id, s.address.frameLine, data⟩] := rfl

@[simp] theorem Slot.store_lastFrameLine (s : Slot capacity) (id : Nat) (data : List UInt8) :
    (s.store id data).lastFrameLine = s.frame.lastFrameLine := rfl

def lineAddress (f : Frame capacity) (lofp : UInt8) (system : System) :
    Except Refusal (Slot capacity) :=
  if room : f.sliced.length < capacity then
    let a := lofpToLine lofp system
    let n := f.nDataUnitsExtractedFromPacket
    if a.frameLine ≠ 0 then
      if a.frameLine ≤ f.lastFrameLine then
        if 0 < n then .error (.failed .duLineNumber) else .error .newFrame
      else
        .ok ⟨{ f with
          lastField := a.field
          lastFieldLine := a.fieldLine
          lastFrameLine := a.frameLine
          nDataUnitsExtractedFromPacket := n + 1 }, a, room⟩
    else if f.lastDataUnitId ≠ 0 ∧ a.field ≠ f.lastField ∧ n = 0 then
      .error .newFrame
    else if f.lastDataUnitId ≠ 0 ∧ a.field < f.lastField then
      .error (.failed .duLineNumber)
    else
      .ok ⟨{ f with
        lastField := a.field
        lastFieldLine := a.fieldLine
        nDataUnitsExtractedFromPacket := n + 1 }, a, room⟩
  else
    .error (.failed .slicedBufferOverflow)

/-- How `extract_data_units()` treats the data unit of a service. -/
structure Service where
  length : Nat
  system : System
  legal : Address → Bool
  id : Nat → Nat
  payload : List UInt8 → List UInt8

/-- Allocate a slot, verify the line and store the payload. On a bad line the
slot is given back, but the line counts as the last one. -/
def storeLine (v : Service) (f : Frame capacity) (data : List UInt8) :
    Frame capacity × Option Refusal :=
  match lineAddress f (data.getD 0 0) v.system with
  | .error r => (f, some r)
  | .ok slot =>
    if v.legal slot.address then
      (slot.store (v.id slot.address.field) (v.payload (data.drop 1)), none)
    else
      (slot.frame, some (.failed .duLineNumber))

def lineUnit (v : Service) (f : Frame capacity) (data : List UInt8) :
    Frame capacity × Option Refusal :=
  if data.length < v.length then (f, some (.failed .duLength)) else storeLine v f data

/-- `DATA_UNIT_EBU_TELETEXT_NON_SUBTITLE` and `DATA_UNIT_EBU_TELETEXT_SUBTITLE`. -/
def ebuTeletext : Service where
  length := 1 + 1 + 42
  system := .system625
  legal a := a.fieldLine = 0 || (7 ≤ a.fieldLine && a.fieldLine < 23)
  id _ := vbiSlicedTeletextB
  payload p := ((p.drop 1).take 42).map vbiRev8

/-- `DATA_UNIT_VPS`. -/
def vps : Service where
  length := 1 + 13
  system := .system625
  legal a := a.frameLine = 16
  id field := if field = 0 then vbiSlicedVps else vbiSlicedVpsF2
  payload p := p.take 13

/-- `DATA_UNIT_WSS`. -/
def wss : Service where
  length := 1 + 2
  system := .system625
  legal a := a.frameLine = 23
  id _ := vbiSlicedWss625
  payload p := (p.take 2).map vbiRev8

/-- `DATA_UNIT_ZVBI_WSS_CPR1204`. The line is not verified. -/
def zvbiWssCpr1204 : Service where
  length := 1 + 3
  system := .system525
  legal _ := true
  id _ := vbiSlicedWssCpr1204
  payload p := p.take 3

/-- `DATA_UNIT_ZVBI_CLOSED_CAPTION_525`. The line is not verified. -/
def zvbiClosedCaption525 : Service where
  length := 1 + 2
  system := .system525
  legal _ := true
  id field := if field = 0 then vbiSlicedCaption525F1 else vbiSlicedCaption525F2
  payload p := (p.take 2).map vbiRev8

/-- `DATA_UNIT_CLOSED_CAPTION`. -/
def closedCaption : Service where
  length := 1 + 2
  system := .system625
  legal a := a.frameLine = 21
  id field := if field = 0 then vbiSlicedCaption625F1 else vbiSlicedCaption625F2
  payload p := (p.take 2).map vbiRev8

def teletextUnit (f : Frame capacity) (data : List UInt8) : Frame capacity × Option Refusal :=
  if data.length < ebuTeletext.length then
    (f, some (.failed .duLength))
  else if data.getD 1 0 ≠ 0xe4 then
    (f, none)
  else
    storeLine ebuTeletext f data

def dataUnit (f : Frame capacity) (id : UInt8) (data : List UInt8) :
    Frame capacity × Option Refusal :=
  if id = 0x02 ∨ id = 0x03 then teletextUnit f data
  else if id = 0xc3 then lineUnit vps f data
  else if id = 0xc4 then lineUnit wss f data
  else if id = 0xb4 then lineUnit zvbiWssCpr1204 f data
  else if id = 0xb5 then lineUnit zvbiClosedCaption525 f data
  else if id = 0xc5 then lineUnit closedCaption f data
  else (f, none)

structure Extraction (capacity : Nat) where
  frame : Frame capacity
  refusal : Option Refusal
  rest : List UInt8

/-- The loop of `extract_data_units()`. -/
def extractLoop : Nat → Frame capacity → List UInt8 → Extraction capacity
  | fuel + 1, f, id :: length :: b :: p =>
    if (b :: p).length < length.toNat then
      ⟨f, some (.failed .duOverflow), id :: length :: b :: p⟩
    else
      match dataUnit f id ((b :: p).take length.toNat) with
      | (f, some r) => ⟨f, some r, id :: length :: b :: p⟩
      | (f, none) =>
        extractLoop fuel { f with lastDataUnitId := id } ((b :: p).drop length.toNat)
  | _, f, _ => ⟨f, none, []⟩

def extractDataUnits (f : Frame capacity) (src : List UInt8) : Extraction capacity :=
  extractLoop src.length f src

/-- More fuel than bytes makes no difference. -/
theorem extractLoop_fuel (f : Frame capacity) (src : List UInt8) {fuel : Nat}
    (h : src.length ≤ fuel) : extractLoop fuel f src = extractDataUnits f src := by
  suffices hs : ∀ n m (f : Frame capacity) (src : List UInt8), src.length ≤ n →
      src.length ≤ m → extractLoop n f src = extractLoop m f src by
    exact hs fuel src.length f src h le_rfl
  intro n
  induction n with
  | zero =>
    intro m f src hn _
    obtain rfl := List.length_eq_zero_iff.mp (Nat.le_zero.mp hn)
    cases m <;> rfl
  | succ n ih =>
    intro m f src hn hm
    match src, m with
    | [], 0 => rfl
    | [], m + 1 => rfl
    | [_], m + 1 => rfl
    | [_, _], m + 1 => rfl
    | id :: length :: b :: p, m + 1 =>
      simp only [List.length_cons] at hn hm
      have next : ∀ g : Frame capacity, extractLoop n g ((b :: p).drop length.toNat) =
          extractLoop m g ((b :: p).drop length.toNat) := by
        intro g
        apply ih <;> rw [List.length_drop, List.length_cons] <;> omega
      simp only [extractLoop, next]

/-- Less than three bytes hold no data unit with a line. -/
theorem extractDataUnits_short (f : Frame capacity) {src : List UInt8} (h : src.length < 3) :
    extractDataUnits f src = ⟨f, none, []⟩ := by
  match src with
  | [] => rfl
  | [_] => rfl
  | [_, _] => rfl
  | _ :: _ :: _ :: _ =>
    simp only [List.length_cons] at h
    omega

/-- The first data unit and what follows. -/
theorem extractDataUnits_unit (f : Frame capacity) (id length : UInt8) {p : List UInt8}
    (hp : p ≠ []) : extractDataUnits f (id :: length :: p) =
      if p.length < length.toNat then ⟨f, some (.failed .duOverflow), id :: length :: p⟩
      else
        match dataUnit f id (p.take length.toNat) with
        | (f, some r) => ⟨f, some r, id :: length :: p⟩
        | (f, none) => extractDataUnits { f with lastDataUnitId := id } (p.drop length.toNat) := by
  obtain ⟨b, p, rfl⟩ := List.exists_cons_of_ne_nil hp
  have next : ∀ g : Frame capacity, extractLoop (p.length + 1 + 1) g
      ((b :: p).drop length.toNat) = extractDataUnits g ((b :: p).drop length.toNat) := by
    intro g
    apply extractLoop_fuel
    rw [List.length_drop, List.length_cons]
    omega
  simp only [extractDataUnits, List.length_cons] at next ⊢
  simp only [extractLoop, List.length_cons, next]

def splitUnits : Nat → List UInt8 → List (UInt8 × List UInt8)
  | fuel + 1, id :: length :: p =>
    if p.length < length.toNat then []
    else (id, p.take length.toNat) :: splitUnits fuel (p.drop length.toNat)
  | _, _ => []

def dataUnits (src : List UInt8) : List (UInt8 × List UInt8) := splitUnits src.length src

/-- Data units follow one another up to a rest which holds none. -/
theorem unit_induction {P : List UInt8 → Prop} (short : ∀ src, src.length < 3 → P src)
    (unit : ∀ id length p, p ≠ [] → P (p.drop length.toNat) → P (id :: length :: p))
    (src : List UInt8) : P src := by
  suffices h : ∀ n (src : List UInt8), src.length ≤ n → P src by
    exact h src.length src le_rfl
  intro n
  induction n with
  | zero =>
    intro src hn
    exact short src (by omega)
  | succ n ih =>
    intro src hn
    match src with
    | [] => exact short _ (by simp)
    | [_] => exact short _ (by simp)
    | [_, _] => exact short _ (by simp)
    | id :: length :: b :: p =>
      simp only [List.length_cons] at hn
      apply unit id length (b :: p) (List.cons_ne_nil b p)
      apply ih
      rw [List.length_drop, List.length_cons]
      omega

theorem splitUnits_fuel (src : List UInt8) {fuel : Nat} (h : src.length ≤ fuel) :
    splitUnits fuel src = dataUnits src := by
  suffices hs : ∀ n m (src : List UInt8), src.length ≤ n → src.length ≤ m →
      splitUnits n src = splitUnits m src by
    exact hs fuel src.length src h le_rfl
  intro n
  induction n with
  | zero =>
    intro m src hn _
    obtain rfl := List.length_eq_zero_iff.mp (Nat.le_zero.mp hn)
    cases m <;> rfl
  | succ n ih =>
    intro m src hn hm
    match src, m with
    | [], 0 => rfl
    | [], m + 1 => rfl
    | [_], m + 1 => rfl
    | id :: length :: p, m + 1 =>
      simp only [List.length_cons] at hn hm
      have next : splitUnits n (p.drop length.toNat) = splitUnits m (p.drop length.toNat) := by
        apply ih <;> rw [List.length_drop] <;> omega
      simp only [splitUnits, next]

theorem dataUnits_unit (id length : UInt8) (p : List UInt8) :
    dataUnits (id :: length :: p) =
      if p.length < length.toNat then []
      else (id, p.take length.toNat) :: dataUnits (p.drop length.toNat) := by
  have next : splitUnits (p.length + 1) (p.drop length.toNat) =
      dataUnits (p.drop length.toNat) := by
    apply splitUnits_fuel
    rw [List.length_drop]
    omega
  simp only [dataUnits, List.length_cons, splitUnits] at next ⊢
  rw [next]

end DvbFrame
