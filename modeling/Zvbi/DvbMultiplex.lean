import Zvbi.DvbMuxPackets

/-!
# Data units without packets

`vbi_dvb_multiplex_sliced()` and `vbi_dvb_multiplex_raw()` store data units in a
buffer of the caller, and stuffing behind them if requested. The data units follow one
another without a gap. Stuffing can enlarge the last one by a byte.
-/

namespace DvbMultiplex
open DvbMuxUnits DvbMux
open DvbFrame (Sliced dataUnits dataUnits_unit)

/-- What a call returns, the bytes it stored, the number of bytes left in the buffer, and
the lines or samples which were not converted. -/
structure Output (α : Type) where
  ok : Bool
  packet : List UInt8
  packetLeft : Nat
  left : List α

def finish {α : Type} (b : Buffer) (fixedLength stuffing : Bool) (left : List α) :
    Except Fault (Output α) :=
  if stuffing then
    match encodeStuffing b fixedLength with
    | none => .error .assertion
    | some packet => .ok ⟨true, packet, 0, left⟩
  else
    .ok ⟨true, b.packet, b.pLeft, left⟩

def unsuitable (packetLeft dataIdentifier : Nat) : Bool :=
  packetLeft < 2 || (fixedLengthFormat dataIdentifier && packetLeft % 46 > 0)

theorem suitable {packetLeft dataIdentifier : Nat}
    (h : unsuitable packetLeft dataIdentifier = false) :
    2 ≤ packetLeft ∧ (fixedLengthFormat dataIdentifier = true → 46 ∣ packetLeft) := by
  rw [unsuitable, Bool.or_eq_false_iff, decide_eq_false_iff_not] at h
  refine ⟨Nat.not_lt.mp h.1, fun hfixed => ?_⟩
  have hmod := h.2
  rw [hfixed, Bool.true_and, decide_eq_false_iff_not] at hmod
  omega

/-- `vbi_dvb_multiplex_sliced()`. -/
def vbiDvbMultiplexSliced (packetLeft : Nat) (sliced : List Sliced)
    (serviceMask dataIdentifier : Nat) (stuffing : Bool) : Except Fault (Output Sliced) :=
  if unsuitable packetLeft dataIdentifier then
    .ok ⟨false, [], packetLeft, sliced⟩
  else
    let i := insertSlicedDataUnits serviceMask (fixedLengthFormat dataIdentifier)
      ⟨[], packetLeft, 0⟩ sliced
    if i.err.isSome then
      .ok ⟨false, i.buffer.packet, i.buffer.pLeft, i.rest⟩
    else
      finish i.buffer (fixedLengthFormat dataIdentifier) stuffing i.rest

def vbiDvbMultiplexRaw (packetLeft : Nat) (raw : List UInt8) (dataIdentifier videostdSet line
    firstPixelPosition nPixelsTotal : Nat) (stuffing : Bool) : Except Fault (Output UInt8) :=
  if unsuitable packetLeft dataIdentifier || raw.isEmpty then
    .ok ⟨false, [], packetLeft, raw⟩
  else
    match insertRawDataUnits ⟨[], packetLeft, 0⟩ raw (fixedLengthFormat dataIdentifier)
      videostdSet line firstPixelPosition nPixelsTotal stuffing with
    | .error _ => .ok ⟨false, [], packetLeft, raw⟩
    | .ok (b, left) => finish b (fixedLengthFormat dataIdentifier) stuffing left

def unitBytes (u : UInt8 × List UInt8) : List UInt8 := u.1 :: UInt8.ofNat u.2.length :: u.2

theorem unitBytes_length (u : UInt8 × List UInt8) : (unitBytes u).length = u.2.length + 2 := rfl

/-- The bytes are data units end to end, each of the length it says. -/
def Tiled (packet : List UInt8) : Prop := (dataUnits packet).flatMap unitBytes = packet

variable {us : List (UInt8 × List UInt8)}

theorem dataUnits_flatMap (h : ∀ u ∈ us, u.2.length < 256) :
    dataUnits (us.flatMap unitBytes) = us := by
  induction us with
  | nil => rfl
  | cons u us ih =>
    rw [List.forall_mem_cons] at h
    have hlength : (UInt8.ofNat u.2.length).toNat = u.2.length := by
      rw [UInt8.toNat_ofNat']
      exact Nat.mod_eq_of_lt h.1
    rw [List.flatMap_cons, unitBytes, List.cons_append, List.cons_append, dataUnits_unit, hlength,
      if_neg (by rw [List.length_append]; omega), List.take_left, List.drop_left, ih h.2]

theorem tiled_flatMap (h : ∀ u ∈ us, u.2.length < 256) : Tiled (us.flatMap unitBytes) := by
  rw [Tiled, dataUnits_flatMap h]

/-- The buffer contains these data units and remembers the size of the last one. -/
structure Holds (b : Buffer) (us : List (UInt8 × List UInt8)) : Prop where
  packet : b.packet = us.flatMap unitBytes
  sized : ∀ u ∈ us, u.2.length < 256
  last : b.lastDuSize = us.getLast?.elim 0 fun u => u.2.length + 2

theorem holds_nil (pLeft : Nat) : Holds ⟨[], pLeft, 0⟩ [] :=
  ⟨rfl, List.forall_mem_nil _, rfl⟩

theorem Holds.store {b : Buffer} {us : List (UInt8 × List UInt8)} (h : Holds b us)
    {u : UInt8 × List UInt8} (hu : u.2.length < 256) : Holds (b.store (unitBytes u)) (us ++ [u]) := by
  refine ⟨?_, ?_, ?_⟩
  · rw [Buffer.store_packet, h.packet, List.flatMap_append, List.flatMap_singleton]
  · rw [List.forall_mem_append, List.forall_mem_singleton]
    exact ⟨h.sized, hu⟩
  · rw [List.getLast?_append, List.getLast?_singleton]
    exact unitBytes_length u

inductive Enlarged : List (UInt8 × List UInt8) → List (UInt8 × List UInt8) → Prop
  | same (us : List (UInt8 × List UInt8)) : Enlarged us us
  | last (us : List (UInt8 × List UInt8)) (id : UInt8) (data : List UInt8) :
      Enlarged (us ++ [(id, data)]) (us ++ [(id, data ++ [0xff])])

def stuffing (duSize : Nat) : UInt8 × List UInt8 := (0xff, List.replicate (duSize - 2) 0xff)

theorem stuffingUnit_eq (duSize : Nat) : stuffingUnit duSize = unitBytes (stuffing duSize) := by
  rw [unitBytes, stuffing, List.length_replicate]
  rfl

theorem set_length_byte (xs : List UInt8) (id length value : UInt8) (data : List UInt8) :
    (xs ++ id :: length :: data).set (xs.length + 1) value = xs ++ id :: value :: data := by
  rw [List.set_append_right _ _ (Nat.le_add_right _ _), Nat.add_sub_cancel_left]
  rfl

structure Stuffed (us : List (UInt8 × List UInt8)) (packet : List UInt8) : Prop where
  units : ∃ us' fill, Enlarged us us' ∧ (∀ u ∈ fill, u.1 = 0xff) ∧
    (∀ u ∈ us' ++ fill, u.2.length < 256) ∧ packet = (us' ++ fill).flatMap unitBytes

theorem encodeStuffing_stuffed {b : Buffer} {fixedLength : Bool} {packet : List UInt8}
    (h : Holds b us) (hcritical : b.pLeft = 1 → b.lastDuSize ≠ 257)
    (hpacket : encodeStuffing b fixedLength = some packet) : Stuffed us packet := by
  have hsize : 2 ≤ (if fixedLength then 46 else 257) := by
    split <;> decide
  have hsize' : (if fixedLength then 46 else 257) ≤ 257 := by
    split <;> decide
  obtain ⟨hloop, hleft, hlast⟩ := stuffingLoop_spec hsize (Nat.le_refl b.pLeft)
  rw [encodeStuffing] at hpacket
  generalize hdu : (if fixedLength then 46 else 257) = duSize at *
  generalize stuffingLoop duSize b.pLeft b = c at *
  generalize hk : b.pLeft / duSize = k at *
  have hsized : ∀ u ∈ us ++ List.replicate k (stuffing duSize), u.2.length < 256 := by
    rw [List.forall_mem_append]
    refine ⟨h.sized, fun u hu => ?_⟩
    rw [(List.mem_replicate.mp hu).2, stuffing, List.length_replicate]
    omega
  have hfill : ∀ u ∈ List.replicate k (stuffing duSize), u.1 = 0xff := by
    intro u hu
    rw [(List.mem_replicate.mp hu).2]
    rfl
  have hunits : c.packet = (us ++ List.replicate k (stuffing duSize)).flatMap unitBytes := by
    rw [hloop, h.packet, List.flatMap_append, stuffingUnit_eq, List.flatMap_replicate]
  split at hpacket
  · cases hpacket
    exact ⟨us, _, .same us, hfill, hsized, hunits⟩
  split at hpacket
  · cases hpacket
  rename_i hvariable
  rw [if_neg hvariable] at hdu
  split at hpacket
  · -- a smaller unit at the end
    rename_i hmore
    cases hpacket
    refine ⟨us, List.replicate k (stuffing duSize) ++ [stuffing c.pLeft], .same us, ?_, ?_, ?_⟩
    · rw [List.forall_mem_append, List.forall_mem_singleton]
      exact ⟨hfill, rfl⟩
    · rw [← List.append_assoc, List.forall_mem_append, List.forall_mem_singleton]
      refine ⟨hsized, ?_⟩
      have hmod := Nat.mod_lt b.pLeft (Nat.lt_of_lt_of_le Nat.zero_lt_two hsize)
      rw [stuffing, List.length_replicate]
      omega
    · rw [← List.append_assoc, List.flatMap_append, List.flatMap_singleton, ← hunits,
        stuffingUnit_eq]
  rename_i hone
  split at hpacket
  · cases hpacket
  rename_i hlarge
  by_cases hroom : duSize ≤ b.pLeft
  · -- the last stuffing unit gives a byte to another one
    rw [if_pos hroom] at hlast
    rw [if_pos (hlast.trans hdu.symm)] at hpacket
    cases hpacket
    have hpos : 0 < k := by
      rw [← hk]
      exact Nat.div_pos hroom (Nat.lt_of_lt_of_le Nat.zero_lt_two hsize)
    obtain ⟨k, rfl⟩ := Nat.exists_eq_add_one_of_ne_zero (Nat.ne_of_gt hpos)
    refine ⟨us, List.replicate k (stuffing duSize) ++ [stuffing 256, stuffing 2], .same us, ?_, ?_,
      ?_⟩
    · rw [List.forall_mem_append]
      refine ⟨fun u hu => ?_, ?_⟩
      · rw [(List.mem_replicate.mp hu).2]
        rfl
      · decide
    · rw [← List.append_assoc, List.forall_mem_append]
      refine ⟨fun u hu => hsized u ?_, by decide +kernel⟩
      rw [List.replicate_succ', ← List.append_assoc]
      exact List.mem_append_left _ hu
    · have hindex : c.packet.length + 1 - 257 =
          ((us ++ List.replicate k (stuffing duSize)).flatMap unitBytes).length + 1 := by
        rw [hunits, List.replicate_succ', ← List.append_assoc, List.flatMap_append,
          List.flatMap_singleton, List.length_append, unitBytes_length, stuffing,
          List.length_replicate]
        omega
      rw [hindex, hunits, List.replicate_succ', ← List.append_assoc, List.flatMap_append,
        List.flatMap_singleton, unitBytes, set_length_byte, ← List.append_assoc us,
        @List.flatMap_append _ _ _ [stuffing 256, stuffing 2], List.append_assoc]
      subst hdu
      have hparts : ((stuffing 257).1 :: 254 :: (stuffing 257).2) ++ [0] =
          [stuffing 256, stuffing 2].flatMap unitBytes := by
        decide +kernel
      rw [hparts]
  · have hk0 : k = 0 := by
      rw [← hk]
      exact Nat.div_eq_of_lt (Nat.not_le.mp hroom)
    have hleft' : b.pLeft = 1 := by
      rw [Nat.mod_eq_of_lt (Nat.not_le.mp hroom)] at hleft
      omega
    have hnot := hcritical hleft'
    rw [if_neg hroom] at hlast
    rw [if_neg (hlast ▸ hnot)] at hpacket
    cases hpacket
    rw [hk0, List.replicate_zero, List.append_nil] at hunits
    rcases List.eq_nil_or_concat us with rfl | ⟨us, ⟨id, data⟩, rfl⟩
    · rw [hlast, h.last] at hlarge
      exact absurd Nat.zero_lt_two hlarge
    rw [List.concat_eq_append] at *
    have hdata : b.lastDuSize = data.length + 2 := by
      rw [h.last, List.getLast?_append, List.getLast?_singleton]
      rfl
    have hbytes : c.packet = us.flatMap unitBytes ++ id :: UInt8.ofNat data.length :: data := by
      rw [hunits, List.flatMap_append, List.flatMap_singleton]
      rfl
    have hindex : c.packet.length + 1 - c.lastDuSize = (us.flatMap unitBytes).length + 1 := by
      rw [hbytes, hlast, hdata, List.length_append, List.length_cons, List.length_cons]
      omega
    have hsize'' := h.sized
    rw [List.forall_mem_append, List.forall_mem_singleton] at hsize''
    refine ⟨us ++ [(id, data ++ [0xff])], [], .last us id data, List.forall_mem_nil _, ?_, ?_⟩
    · rw [List.append_nil, List.forall_mem_append, List.forall_mem_singleton]
      refine ⟨hsize''.1, ?_⟩
      have hlt := hsize''.2
      dsimp only at hlt ⊢
      rw [List.length_append, List.length_singleton]
      omega
    · rw [hindex, hbytes, set_length_byte, hlast, hdata, List.append_nil, List.flatMap_append,
        List.flatMap_singleton, unitBytes, List.append_assoc, List.length_append,
        List.length_singleton]
      rfl

end DvbMultiplex
