import Mathlib.Data.List.Basic
import Zvbi.DvbFrame
import Zvbi.Hamming

/-!
# Data units of the DVB VBI multiplexer

Sliced lines become one data unit each. A line of raw VBI samples is cut into as
many segments as it takes. Units are stored one after the other while there is
room, and stuffing units fill the rest of the packet. A single byte is too small for
a stuffing unit, then the last data unit grows by one byte.
-/

namespace DvbMuxUnits
open Hamming
open DvbFrame (Sliced vbiSlicedTeletextB vbiSlicedVps vbiSlicedCaption625F1 vbiSlicedWss625)

/-- The `VBI_ERR_` codes of the multiplexer. -/
inductive Err
  | rawBufferOverflow
  | lineNumber
  | lineOrder
  | invalidService
  | sampleNumber
  | ambiguousVideostd
  | rawDataInterruption
  | noRawData
  | samplingPar

structure Buffer where
  packet : List UInt8
  pLeft : Nat
  lastDuSize : Nat

def Buffer.store (b : Buffer) (du : List UInt8) : Buffer :=
  ⟨b.packet ++ du, b.pLeft - du.length, du.length⟩

@[simp] theorem Buffer.store_packet (b : Buffer) (du : List UInt8) :
    (b.store du).packet = b.packet ++ du := rfl

@[simp] theorem Buffer.store_pLeft (b : Buffer) (du : List UInt8) :
    (b.store du).pLeft = b.pLeft - du.length := rfl

@[simp] theorem Buffer.store_lastDuSize (b : Buffer) (du : List UInt8) :
    (b.store du).lastDuSize = du.length := rfl

/-- A data unit of stuffing bytes, of two bytes or more. -/
def stuffingUnit (duSize : Nat) : List UInt8 :=
  0xff :: UInt8.ofNat (duSize - 2) :: List.replicate (duSize - 2) 0xff

/-- The `while` loop of `encode_stuffing()`. -/
def stuffingLoop (duSize : Nat) : Nat → Buffer → Buffer
  | 0, b => b
  | fuel + 1, b =>
    if duSize ≤ b.pLeft then stuffingLoop duSize fuel (b.store (stuffingUnit duSize)) else b

/-- `encode_stuffing()`, none if an assertion fails. -/
def encodeStuffing (b : Buffer) (fixedLength : Bool) : Option (List UInt8) :=
  let duSize := if fixedLength then 46 else 257
  let b := stuffingLoop duSize b.pLeft b
  if b.pLeft = 0 then
    some b.packet
  else if fixedLength then
    none
  else if 2 ≤ b.pLeft then
    some (b.packet ++ stuffingUnit b.pLeft)
  else if b.lastDuSize < 2 then
    none
  else if b.lastDuSize = 257 then
    some (b.packet.set (b.packet.length + 1 - 257) 254 ++ [0])
  else
    some (b.packet.set (b.packet.length + 1 - b.lastDuSize) (UInt8.ofNat (b.lastDuSize - 1)) ++
      [0xff])

def vbiSlicedTeletextBL10 : Nat := 0x00000001
def vbiSlicedTeletextBL25 : Nat := 0x00000002
def vbiSlicedCaption625 : Nat := 0x00000018
def vbiSlicedVbi625 : Nat := 0x20000000

/-- How `insert_sliced_data_units()` codes the lines of a service. -/
structure Service where
  duSize : Nat
  legal : Nat → Bool
  unitId : UInt8
  payload : List UInt8 → List UInt8

/-- `data[i]` of a sliced line. -/
def dataBytes (n : Nat) (data : List UInt8) : List UInt8 :=
  (List.range n).map fun i => data.getD i 0

def teletextB : Service where
  duSize := 2 + 2 + 42
  legal line :=
    let fieldLine := if 313 ≤ line then line - 313 else line
    line = 0 || (7 ≤ fieldLine && fieldLine ≤ 22)
  unitId := 0x02
  payload data := 0xe4 :: (dataBytes 42 data).map vbiRev8

def vps : Service where
  duSize := 2 + 1 + 13
  legal line := line = 16
  unitId := 0xc3
  payload data := dataBytes 13 data

def wss625 : Service where
  duSize := 2 + 1 + 2
  legal line := line = 23
  unitId := 0xc4
  payload data := [vbiRev8 (data.getD 0 0), vbiRev8 (data.getD 1 0) ||| 3]

def caption625 : Service where
  duSize := 2 + 1 + 2
  legal line := line = 21
  unitId := 0xc5
  payload data := (dataBytes 2 data).map vbiRev8

def service (id : Nat) : Option Service :=
  if id = vbiSlicedTeletextBL10 ∨ id = vbiSlicedTeletextBL25 ∨ id = vbiSlicedTeletextB then
    some teletextB
  else if id = vbiSlicedVps then some vps
  else if id = vbiSlicedWss625 then some wss625
  else if id = vbiSlicedCaption625 ∨ id = vbiSlicedCaption625F1 then some caption625
  else none

def IsTeletext (id : Nat) : Prop :=
  id = vbiSlicedTeletextBL10 ∨ id = vbiSlicedTeletextBL25 ∨ id = vbiSlicedTeletextB

instance (id : Nat) : Decidable (IsTeletext id) :=
  inferInstanceAs (Decidable (_ ∨ _ ∨ _))

variable {id : Nat} {b : Buffer} {v : Service}

theorem teletext_service (h : IsTeletext id) : service id = some teletextB := if_pos h

def lofp (line lastLine : Nat) : Option UInt8 :=
  if line = 0 then
    some (if 313 ≤ lastLine then 0xc0 else 0xe0)
  else if line < 32 then
    some (0xe0 + UInt8.ofNat line)
  else if line < 313 then
    none
  else if line < 313 + 32 then
    some (0xc0 + UInt8.ofNat (line - 313))
  else
    none

def Service.dataUnit (v : Service) (duSize : Nat) (lofp : UInt8) (data : List UInt8) :
    List UInt8 :=
  v.unitId :: UInt8.ofNat (duSize - 2) :: lofp ::
    (v.payload data ++ List.replicate (duSize - 3 - (v.payload data).length) 0xff)

/-- `EN 300 472` compatible data units have 46 bytes. -/
def Service.size (v : Service) (fixedLength : Bool) : Nat :=
  if fixedLength then 2 + 0x2c else v.duSize

structure Insertion where
  buffer : Buffer
  rest : List Sliced
  err : Option Err

/-- The loop of `insert_sliced_data_units()`. -/
def insertLoop (serviceMask : Nat) (fixedLength : Bool) : Nat → Buffer → List Sliced → Insertion
  | _, b, [] => ⟨b, [], none⟩
  | lastLine, b, s :: rest =>
    if s.id &&& serviceMask = 0 then
      insertLoop serviceMask fixedLength lastLine b rest
    else if 0 < s.line ∧ s.line ≤ lastLine then
      ⟨b, s :: rest, some .lineOrder⟩
    else
      let lastLine := if 0 < s.line then s.line else lastLine
      match service s.id with
      | none => ⟨b, s :: rest, some .invalidService⟩
      | some v =>
        if v.legal s.line = false then
          ⟨b, s :: rest, some .lineNumber⟩
        else if b.pLeft < v.size fixedLength then
          -- data units must not cross packet boundaries
          ⟨b, s :: rest, none⟩
        else
          match lofp s.line lastLine with
          | none => ⟨b, s :: rest, some .lineNumber⟩
          | some l =>
            insertLoop serviceMask fixedLength lastLine
              (b.store (v.dataUnit (v.size fixedLength) l s.data)) rest

def insertSlicedDataUnits (serviceMask : Nat) (fixedLength : Bool) (b : Buffer)
    (sliced : List Sliced) : Insertion :=
  insertLoop serviceMask fixedLength 0 { b with lastDuSize := 0 } sliced

def vbiVideostdSet62550 : Nat := 1
def vbiVideostdSet52560 : Nat := 2

structure RawPar where
  fixedLength : Bool
  stuffing : Bool
  lofp : Nat
  nPixelsTotal : Nat

def RawPar.minDuSize (c : RawPar) : Nat := if c.fixedLength then 2 + 0x2c else 2 + 4 + 1

/-- With this many bytes left a unit of maximum size would leave one byte. -/
def RawPar.critPLeft (c : RawPar) : Nat := if c.stuffing then 2 + 4 + 251 + 1 else 0

def RawPar.nPixels (c : RawPar) (pLeft rLeft : Nat) : Nat :=
  if c.fixedLength then min rLeft (0x2c - 4)
  else if c.critPLeft = pLeft then min rLeft 250
  else min (min rLeft 251) (pLeft - 6)

/-- A segment of `r`, its first `nPixels` samples. -/
def RawPar.segment (c : RawPar) (firstPixelPosition nPixels : Nat) (r : List UInt8) :
    List UInt8 :=
  0xc6 :: UInt8.ofNat (if c.fixedLength then 0x2c else 4 + nPixels) ::
    UInt8.ofNat (c.lofp + (if r.length = c.nPixelsTotal then 1 <<< 7 else 0) +
      (if r.length = nPixels then 1 <<< 6 else 0)) ::
    UInt8.ofNat (firstPixelPosition >>> 8) :: UInt8.ofNat firstPixelPosition ::
    UInt8.ofNat nPixels ::
    (r.take nPixels ++ if c.fixedLength then List.replicate (0x2c - 4 - nPixels) 0xff else [])

/-- The loop of `insert_raw_data_units()`. The samples left are returned too. -/
def rawLoop (c : RawPar) : Nat → Nat → Buffer → List UInt8 → Buffer × List UInt8
  | 0, _, b, r => (b, r)
  | fuel + 1, firstPixelPosition, b, r =>
    if r.length = 0 ∨ b.pLeft < c.minDuSize then
      (b, r)
    else
      let nPixels := c.nPixels b.pLeft r.length
      rawLoop c fuel (firstPixelPosition + nPixels)
        (b.store (c.segment firstPixelPosition nPixels r)) (r.drop nPixels)

def f2Start (videostdSet : Nat) : Option Nat :=
  if videostdSet &&& vbiVideostdSet52560 ≠ 0 then
    if videostdSet &&& vbiVideostdSet62550 ≠ 0 then none else some 263
  else if videostdSet &&& vbiVideostdSet62550 ≠ 0 then some 313
  else none

def insertRawDataUnits (b : Buffer) (raw : List UInt8) (fixedLength : Bool) (videostdSet : Nat)
    (line firstPixelPosition nPixelsTotal : Nat) (stuffing : Bool) :
    Except Err (Buffer × List UInt8) :=
  match f2Start videostdSet with
  | none => .error .ambiguousVideostd
  | some f2 =>
    if nPixelsTotal < raw.length ∨ 720 < firstPixelPosition + nPixelsTotal then
      .error .sampleNumber
    else
      let fieldLine := if f2 ≤ line then line - f2 else line
      if fieldLine < 7 ∨ 23 < fieldLine then
        .error .lineNumber
      else
        let lofp := (if f2 ≤ line then 0 else 1 <<< 5) + fieldLine
        .ok (rawLoop ⟨fixedLength, stuffing, lofp, nPixelsTotal⟩ raw.length
          (firstPixelPosition + (nPixelsTotal - raw.length)) { b with lastDuSize := 0 } raw)

theorem stuffingUnit_length {duSize : Nat} (h : 2 ≤ duSize) :
    (stuffingUnit duSize).length = duSize := by
  simp only [stuffingUnit, List.length_cons, List.length_replicate]
  omega

/-- The loop stores units of one size while there is room. -/
theorem stuffingLoop_spec {duSize : Nat} (h : 2 ≤ duSize) {fuel : Nat} {b : Buffer}
    (hfuel : b.pLeft ≤ fuel) :
    (stuffingLoop duSize fuel b).packet =
      b.packet ++ (List.replicate (b.pLeft / duSize) (stuffingUnit duSize)).flatten ∧
    (stuffingLoop duSize fuel b).pLeft = b.pLeft % duSize ∧
    (stuffingLoop duSize fuel b).lastDuSize =
      if duSize ≤ b.pLeft then duSize else b.lastDuSize := by
  induction fuel generalizing b with
  | zero =>
    have hleft : b.pLeft = 0 := Nat.le_zero.mp hfuel
    have hlt : ¬ duSize ≤ 0 := by omega
    rw [stuffingLoop, hleft, Nat.zero_div, Nat.zero_mod, if_neg hlt]
    exact ⟨(List.append_nil _).symm, rfl, rfl⟩
  | succ fuel ih =>
    rw [stuffingLoop]
    have hunit := stuffingUnit_length h
    by_cases hroom : duSize ≤ b.pLeft
    · have hnext : (b.store (stuffingUnit duSize)).pLeft ≤ fuel := by
        rw [Buffer.store_pLeft, hunit]
        omega
      obtain ⟨hpacket, hleft, hlast⟩ := ih hnext
      rw [Buffer.store_pLeft, hunit] at hpacket hleft hlast
      have hdiv : b.pLeft / duSize = (b.pLeft - duSize) / duSize + 1 :=
        Nat.div_eq_sub_div (by omega) hroom
      rw [if_pos hroom, if_pos hroom]
      refine ⟨?_, ?_, ?_⟩
      · rw [hpacket, hdiv, List.replicate_succ, List.flatten_cons, Buffer.store_packet,
          List.append_assoc]
      · rw [hleft, ← Nat.mod_eq_sub_mod hroom]
      · rw [hlast, Buffer.store_lastDuSize, hunit, ite_self]
    · rw [if_neg hroom, if_neg hroom, Nat.div_eq_of_lt (Nat.not_le.mp hroom),
        Nat.mod_eq_of_lt (Nat.not_le.mp hroom)]
      exact ⟨(List.append_nil _).symm, rfl, rfl⟩

/-- With data units of any length only a single byte can be left over. -/
theorem encodeStuffing_eq_none :
    encodeStuffing b false = none ↔ b.pLeft = 1 ∧ b.lastDuSize < 2 := by
  obtain ⟨-, hleft, hlast⟩ := @stuffingLoop_spec 257 (by decide) b.pLeft b le_rfl
  simp only [encodeStuffing, Bool.false_eq_true, if_false, hleft, hlast]
  by_cases hroom : 257 ≤ b.pLeft
  · simp only [if_pos hroom]
    have hne : b.pLeft ≠ 1 := by omega
    simp only [hne, false_and, iff_false]
    repeat' split
    all_goals first
      | omega
      | exact Option.some_ne_none _
  · simp only [if_neg hroom, Nat.mod_eq_of_lt (Nat.not_le.mp hroom)]
    constructor
    · intro h
      repeat' split at h
      all_goals first
        | exact absurd h (Option.some_ne_none _)
        | exact ⟨by omega, by assumption⟩
    · rintro ⟨hone, hsmall⟩
      simp only [hone, hsmall, one_ne_zero, if_false, if_true, Nat.not_ofNat_le_one]

/-- Data units of 46 bytes leave nothing over. -/
theorem encodeStuffing_fixed (h : 46 ∣ b.pLeft) : encodeStuffing b true ≠ none := by
  obtain ⟨-, hleft, -⟩ := @stuffingLoop_spec 46 (by decide) b.pLeft b le_rfl
  simp only [encodeStuffing, if_true, hleft, Nat.mod_eq_zero_of_dvd h]
  exact Option.some_ne_none _

@[simp] theorem dataBytes_length (n : Nat) (data : List UInt8) :
    (dataBytes n data).length = n := by
  rw [dataBytes, List.length_map, List.length_range]

theorem service_cases (h : service id = some v) :
    (IsTeletext id ∧ v = teletextB) ∨ (id = vbiSlicedVps ∧ v = vps) ∨
      (id = vbiSlicedWss625 ∧ v = wss625) ∨
      ((id = vbiSlicedCaption625 ∨ id = vbiSlicedCaption625F1) ∧ v = caption625) := by
  rw [service] at h
  split at h
  · rename_i hid
    exact Or.inl ⟨hid, (Option.some.inj h).symm⟩
  split at h
  · rename_i hid
    exact Or.inr (Or.inl ⟨hid, (Option.some.inj h).symm⟩)
  split at h
  · rename_i hid
    exact Or.inr (Or.inr (Or.inl ⟨hid, (Option.some.inj h).symm⟩))
  split at h
  · rename_i hid
    exact Or.inr (Or.inr (Or.inr ⟨hid, (Option.some.inj h).symm⟩))
  · cases h

theorem teletextB_legal {line : Nat} (h : teletextB.legal line = true) :
    line = 0 ∨ (7 ≤ line ∧ line ≤ 22) ∨ (320 ≤ line ∧ line ≤ 335) := by
  simp only [teletextB, Bool.or_eq_true, Bool.and_eq_true, decide_eq_true_eq] at h
  split at h <;> omega

theorem legal_line (h : service id = some v) {line : Nat} (hlegal : v.legal line = true) :
    line = 0 ∨ (0 < line ∧ line < 32) ∨ (313 < line ∧ line < 345) := by
  rcases service_cases h with ⟨-, rfl⟩ | ⟨-, rfl⟩ | ⟨-, rfl⟩ | ⟨-, rfl⟩
  · have hline := teletextB_legal hlegal
    omega
  all_goals
    have hline := of_decide_eq_true hlegal
    omega

/-- The payload of a service has three bytes less than its data unit. -/
theorem service_payload (h : service id = some v) (data : List UInt8) :
    (v.payload data).length + 3 = v.duSize ∧ v.duSize ≤ 46 ∧ 5 ≤ v.duSize := by
  rcases service_cases h with ⟨-, rfl⟩ | ⟨-, rfl⟩ | ⟨-, rfl⟩ | ⟨-, rfl⟩
  · refine ⟨?_, by decide, by decide⟩
    simp only [teletextB, List.length_cons, List.length_map, dataBytes_length]
  · refine ⟨?_, by decide, by decide⟩
    simp only [vps, dataBytes_length]
  · exact ⟨rfl, by decide, by decide⟩
  · refine ⟨?_, by decide, by decide⟩
    simp only [caption625, List.length_map, dataBytes_length]

theorem service_size (h : service id = some v) (fixedLength : Bool) :
    5 ≤ v.size fixedLength ∧ v.size fixedLength ≤ 46 ∧
      (fixedLength = true → v.size fixedLength = 46) := by
  have hpayload := service_payload h []
  cases fixedLength with
  | false =>
    refine ⟨hpayload.2.2, hpayload.2.1, ?_⟩
    rintro ⟨⟩
  | true =>
    have hsize : v.size true = 46 := rfl
    omega

theorem dataUnit_length (h : service id = some v) (fixedLength : Bool) (l : UInt8)
    (data : List UInt8) :
    (v.dataUnit (v.size fixedLength) l data).length = v.size fixedLength := by
  have hpayload := service_payload h data
  have hsize : v.duSize ≤ v.size fixedLength := by
    cases fixedLength
    · exact le_rfl
    · exact hpayload.2.1
  simp only [Service.dataUnit, List.length_cons, List.length_append, List.length_replicate]
  omega

/-- The bytes a line of `n` samples takes when there is room. -/
def rawSize (fixedLength : Bool) (n : Nat) : Nat :=
  if fixedLength then 46 * ((n + 39) / 40) else n + 6 * ((n + 250) / 251)

/-- When `n` samples fit. One byte more than they take is not enough when the last
segment has maximum size. -/
def RawFits (fixedLength : Bool) (room n : Nat) : Prop :=
  rawSize fixedLength n ≤ room ∧
    (fixedLength = false → room = rawSize fixedLength n + 1 → 0 < n → ¬ 251 ∣ n)

instance (fixedLength : Bool) (room n : Nat) : Decidable (RawFits fixedLength room n) :=
  inferInstanceAs (Decidable (_ ∧ (_ → _ → _ → _)))

theorem segment_length (c : RawPar) {pLeft : Nat} (firstPixelPosition : Nat) {r : List UInt8} :
    (c.segment firstPixelPosition (c.nPixels pLeft r.length) r).length =
      if c.fixedLength then 46 else 6 + c.nPixels pLeft r.length := by
  have hle : c.nPixels pLeft r.length ≤ r.length ∧
      (c.fixedLength = true → c.nPixels pLeft r.length ≤ 40) := by
    rw [RawPar.nPixels]
    repeat' split
    all_goals
      constructor
      · omega
      · intro h
        first
          | omega
          | exact absurd h (by assumption)
  simp only [RawPar.segment, List.length_cons, List.length_append, List.length_take]
  split
  · rename_i hfixed
    rw [List.length_replicate]
    have := hle.2 hfixed
    omega
  · rw [List.length_nil]
    omega

/-- A segment of `k` samples and `size` bytes is a step towards coding `n` samples. -/
structure Pass (fixedLength : Bool) (room n k size : Nat) : Prop where
  pos : 0 < k
  le : k ≤ n
  size_le : size ≤ room
  fixed : fixedLength = true → size = 46
  last : k = n → RawFits fixedLength room n ∧ room - rawSize fixedLength n = room - size
  next : k < n → (RawFits fixedLength room n ↔ RawFits fixedLength (room - size) (n - k))
  left : k < n → RawFits fixedLength room n →
    room - rawSize fixedLength n = room - size - rawSize fixedLength (n - k)
  ne_one : k < n → fixedLength = false → room - size ≠ 1

theorem pass_variable {room n k : Nat} (hroom : 7 ≤ room) (hn : 0 < n)
    (hk : k = if 258 = room then min n 250 else min (min n 251) (room - 6)) :
    Pass false room n k (6 + k) := by
  constructor
  case pos | le | size_le => split at hk <;> omega
  case fixed => rintro ⟨⟩
  all_goals
    simp only [RawFits, rawSize, Bool.false_eq_true, if_false, forall_const]
    split at hk <;> omega

theorem pass_fixed {room n k : Nat} (hroom : 46 ≤ room) (hn : 0 < n) (hk : k = min n 40) :
    Pass true room n k 46 := by
  constructor
  case pos | le | size_le => omega
  case fixed => exact fun _ => rfl
  case ne_one => rintro _ ⟨⟩
  all_goals
    simp only [RawFits, rawSize, if_true, Bool.true_eq_false, false_implies, and_true]
    omega

theorem rawLoop_pass (c : RawPar) (hstuffing : c.stuffing = true) {r : List UInt8} (hr : r ≠ [])
    (hroom : c.minDuSize ≤ b.pLeft) (firstPixelPosition : Nat) :
    ∃ k du, Pass c.fixedLength b.pLeft r.length k (List.length du) ∧
      ∀ fuel, rawLoop c (fuel + 1) firstPixelPosition b r =
        rawLoop c fuel (firstPixelPosition + k) (b.store du) (r.drop k) := by
  have hpos : 0 < r.length := List.length_pos_iff.mpr hr
  refine ⟨c.nPixels b.pLeft r.length,
    c.segment firstPixelPosition (c.nPixels b.pLeft r.length) r, ?_, ?_⟩
  · rw [segment_length]
    rw [RawPar.minDuSize] at hroom
    cases hfixed : c.fixedLength with
    | false =>
      rw [hfixed, if_neg Bool.false_ne_true] at hroom
      apply pass_variable (by omega) hpos
      rw [RawPar.nPixels, RawPar.critPLeft, hfixed, hstuffing]
      rfl
    | true =>
      rw [hfixed, if_pos rfl] at hroom
      apply pass_fixed (by omega) hpos
      rw [RawPar.nPixels, hfixed]
      rfl
  · intro fuel
    rw [rawLoop, if_neg (by omega)]

theorem rawLoop_full (c : RawPar) (hroom : b.pLeft < c.minDuSize) (fuel : Nat)
    (firstPixelPosition : Nat) (r : List UInt8) :
    rawLoop c fuel firstPixelPosition b r = (b, r) := by
  cases fuel with
  | zero => rfl
  | succ fuel => rw [rawLoop, if_pos (Or.inr hroom)]

theorem rawLoop_nil (c : RawPar) (fuel firstPixelPosition : Nat) (b : Buffer) :
    rawLoop c fuel firstPixelPosition b [] = (b, []) := by
  cases fuel with
  | zero => rfl
  | succ fuel => exact if_pos (Or.inl rfl)

theorem not_rawFits {fixedLength : Bool} {room n : Nat} (hn : 0 < n)
    (hroom : room < if fixedLength then 2 + 0x2c else 2 + 4 + 1) :
    ¬ RawFits fixedLength room n := by
  intro h
  have hsize := h.1
  cases fixedLength with
  | false =>
    rw [if_neg Bool.false_ne_true] at hroom
    rw [rawSize, if_neg Bool.false_ne_true] at hsize
    omega
  | true =>
    rw [if_pos rfl] at hroom
    rw [rawSize, if_pos rfl] at hsize
    omega

theorem rawLoop_fits (c : RawPar) (hstuffing : c.stuffing = true) {fuel : Nat}
    {firstPixelPosition : Nat} {b : Buffer} {r : List UInt8} (hfuel : r.length ≤ fuel)
    (hfits : RawFits c.fixedLength b.pLeft r.length) :
    (rawLoop c fuel firstPixelPosition b r).2 = [] ∧
    (rawLoop c fuel firstPixelPosition b r).1.pLeft =
      b.pLeft - rawSize c.fixedLength r.length := by
  induction fuel generalizing firstPixelPosition b r with
  | zero =>
    obtain rfl := List.length_eq_zero_iff.mp (Nat.le_zero.mp hfuel)
    refine ⟨rfl, ?_⟩
    rw [rawSize]
    split <;> rfl
  | succ fuel ih =>
    by_cases hr : r = []
    · subst hr
      rw [rawLoop_nil]
      refine ⟨rfl, ?_⟩
      rw [rawSize]
      split <;> rfl
    have hroom : c.minDuSize ≤ b.pLeft := by
      by_contra hfull
      exact not_rawFits (List.length_pos_iff.mpr hr) (Nat.not_le.mp hfull) hfits
    obtain ⟨k, du, hpass, hloop⟩ := rawLoop_pass c hstuffing hr hroom firstPixelPosition
    have hk := hpass.pos
    have hle := hpass.le
    rw [hloop]
    rcases Nat.lt_or_eq_of_le hpass.le with hlt | heq
    · have hnext := (hpass.next hlt).mp hfits
      rw [← List.length_drop] at hnext
      have hshort : (r.drop k).length ≤ fuel := by
        rw [List.length_drop]
        omega
      obtain ⟨hdone, hleft⟩ := @ih (firstPixelPosition + k) (b.store du) (r.drop k) hshort hnext
      rw [List.length_drop] at hleft
      exact ⟨hdone, hleft.trans (hpass.left hlt hfits).symm⟩
    · rw [heq, List.drop_length, rawLoop_nil]
      exact ⟨rfl, (hpass.last heq).2.symm⟩

/-- What is left behind a line which does not fit. -/
theorem rawLoop_stuck (c : RawPar) (hstuffing : c.stuffing = true) {fuel : Nat}
    {firstPixelPosition : Nat} {b : Buffer} {r : List UInt8} (hfuel : r.length ≤ fuel)
    (hstuck : ¬ RawFits c.fixedLength b.pLeft r.length) :
    (rawLoop c fuel firstPixelPosition b r).2 ≠ [] ∧
    (rawLoop c fuel firstPixelPosition b r).1.pLeft < c.minDuSize ∧
    (c.fixedLength = false → (rawLoop c fuel firstPixelPosition b r).1.pLeft = 1 →
      b.pLeft = 1) := by
  induction fuel generalizing firstPixelPosition b r with
  | zero =>
    obtain rfl := List.length_eq_zero_iff.mp (Nat.le_zero.mp hfuel)
    exfalso
    apply hstuck
    rw [RawFits, rawSize, List.length_nil]
    cases c.fixedLength <;> simp
  | succ fuel ih =>
    have hr : r ≠ [] := by
      rintro rfl
      apply hstuck
      rw [RawFits, rawSize, List.length_nil]
      cases c.fixedLength <;> simp
    by_cases hroom : c.minDuSize ≤ b.pLeft
    · obtain ⟨k, du, hpass, hloop⟩ := rawLoop_pass c hstuffing hr hroom firstPixelPosition
      have hk := hpass.pos
      have hle := hpass.le
      rw [hloop]
      rcases Nat.lt_or_eq_of_le hpass.le with hlt | heq
      · have hnext := mt (hpass.next hlt).mpr hstuck
        rw [← List.length_drop] at hnext
        have hshort : (r.drop k).length ≤ fuel := by
          rw [List.length_drop]
          omega
        obtain ⟨hrest, hfull, hone⟩ :=
          @ih (firstPixelPosition + k) (b.store du) (r.drop k) hshort hnext
        refine ⟨hrest, hfull, ?_⟩
        intro hfixed h
        exact absurd (hone hfixed h) (hpass.ne_one hlt hfixed)
      · exact absurd (hpass.last heq).1 hstuck
    · rw [rawLoop_full c (Nat.not_le.mp hroom)]
      exact ⟨hr, Nat.not_le.mp hroom, fun _ h => h⟩

theorem rawLoop_room (c : RawPar) (hstuffing : c.stuffing = true) {fuel : Nat}
    {firstPixelPosition : Nat} {r : List UInt8} :
    (rawLoop c fuel firstPixelPosition b r).1.packet.length +
      (rawLoop c fuel firstPixelPosition b r).1.pLeft = b.packet.length + b.pLeft ∧
    (c.fixedLength = true → 46 ∣ b.pLeft →
      46 ∣ (rawLoop c fuel firstPixelPosition b r).1.pLeft) ∧
    (rawLoop c fuel firstPixelPosition b r).2.length ≤ r.length := by
  induction fuel generalizing firstPixelPosition b r with
  | zero => exact ⟨rfl, fun _ h => h, le_rfl⟩
  | succ fuel ih =>
    by_cases hr : r = []
    · subst hr
      rw [rawLoop_nil]
      exact ⟨rfl, fun _ h => h, le_rfl⟩
    by_cases hroom : c.minDuSize ≤ b.pLeft
    · obtain ⟨k, du, hpass, hloop⟩ := rawLoop_pass c hstuffing hr hroom firstPixelPosition
      have hsize := hpass.size_le
      rw [hloop]
      obtain ⟨hlength, hdvd, hleft⟩ := @ih (b.store du) (firstPixelPosition + k) (r.drop k)
      refine ⟨?_, ?_, ?_⟩
      · rw [hlength, Buffer.store_packet, Buffer.store_pLeft, List.length_append]
        omega
      · intro hfixed h
        apply hdvd hfixed
        rw [Buffer.store_pLeft, hpass.fixed hfixed]
        omega
      · rw [List.length_drop] at hleft
        omega
    · rw [rawLoop_full c (Nat.not_le.mp hroom)]
      exact ⟨rfl, fun _ h => h, le_rfl⟩

end DvbMuxUnits
