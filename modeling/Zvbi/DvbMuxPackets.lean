import Mathlib.Data.List.Basic
import Zvbi.DvbMux

/-!
# The packets of a frame

A PES packet is a whole number of TS payloads long. A TS packet is a header and the
next 184 bytes of the PES packet. The header is written over bytes which have been
passed on before, so the bytes behind it are always those of the PES packet.
-/

namespace DvbMuxPackets
open DvbMuxUnits DvbMux
open DvbFrame (Sliced)

/-- The TS packets for so many payloads, numbered from `counter` on. -/
def tsPackets (pid : Nat) : Nat → Nat → Nat → List UInt8 → List (List UInt8)
  | 0, _, _, _ => []
  | k + 1, counter, offset, pes =>
    (tsPacketHeader pid counter offset ++ pes.take 184) ::
      tsPackets pid k (counter + 1) (offset + 184) (pes.drop 184)

@[simp] theorem tsPacketHeader_length (pid counter offset : Nat) :
    (tsPacketHeader pid counter offset).length = 4 := rfl

theorem tsPackets_succ (pid k counter offset : Nat) (pes : List UInt8) :
    tsPackets pid (k + 1) counter offset pes =
      (tsPacketHeader pid counter offset ++ pes.take 184) ::
        tsPackets pid k (counter + 1) (offset + 184) (pes.drop 184) := rfl

theorem take_tsPacket (pid counter offset : Nat) (rest : List UInt8) :
    (tsPacketHeader pid counter offset ++ rest).take 188 =
      tsPacketHeader pid counter offset ++ rest.take 184 := by
  rw [List.take_append]
  rfl

def packetsOf (o : Options) (counter : Nat) (pes : List UInt8) : List (List UInt8) :=
  if o.pid = 0 then [pes] else tsPackets o.pid (pes.length / 184) counter 0 pes

theorem stuffingLoop_length {duSize : Nat} (h : 2 ≤ duSize) (b : Buffer) :
    (stuffingLoop duSize b.pLeft b).packet.length + (stuffingLoop duSize b.pLeft b).pLeft =
      b.packet.length + b.pLeft := by
  obtain ⟨hpacket, hleft, -⟩ := stuffingLoop_spec h (Nat.le_refl b.pLeft)
  rw [hpacket, hleft, List.length_append, List.length_flatten, List.map_replicate,
    stuffingUnit_length h, List.sum_replicate_nat, Nat.add_assoc, Nat.div_add_mod']

variable {b : Buffer} {fixedLength : Bool} {mx : State} {offset : Nat} {f : FrameData}

theorem encodeStuffing_length {units : List UInt8} (h : encodeStuffing b fixedLength = some units) :
    units.length = b.packet.length + b.pLeft := by
  have hsize : 2 ≤ (if fixedLength then 46 else 257) := by
    split
    · decide
    · decide
  have hlength := stuffingLoop_length hsize b
  simp only [encodeStuffing] at h
  generalize stuffingLoop (if fixedLength then 46 else 257) b.pLeft b = c at h hlength
  rw [← hlength]
  split at h
  · rename_i hdone
    cases h
    rw [hdone]
    rfl
  split at h
  · cases h
  split at h
  · rename_i hmore
    cases h
    rw [List.length_append, stuffingUnit_length hmore]
  split at h
  · cases h
  split at h
  · cases h
    rw [List.length_append, List.length_set, List.length_singleton]
    omega
  · cases h
    rw [List.length_append, List.length_set, List.length_singleton]
    omega

variable {minSize size line : Nat} {pending : RawLine} {g : Generated} {o : Options}
  {pes : List UInt8}

theorem stuffingSize_dvd (h : 184 ∣ minSize) : 184 ∣ size + stuffingSize minSize size := by
  rw [stuffingSize]
  split
  · omega
  split <;> omega

theorem stuffingSize_min (minSize size : Nat) : minSize ≤ size + stuffingSize minSize size := by
  rw [stuffingSize]
  split
  · omega
  split <;> omega

theorem pesPacketHeader_length (size : Nat) (pts : BitVec 64) (id : Nat) :
    (pesPacketHeader size pts id).length = 46 := rfl

/-- Only the unfinished raw line of the context matters. -/
theorem generatePesPacket_congr (o : Options) {mx' : State} (h : mx.raw = mx'.raw) (f : FrameData) :
    generatePesPacket o mx f = generatePesPacket o mx' f := by
  simp only [generatePesPacket, interrupted, encodeLines, h]

@[simp] theorem generateTsPacketHeader_counter (o : Options) (mx : State) (offset : Nat) :
    (generateTsPacketHeader o mx offset).continuityCounter = mx.continuityCounter + 1 := rfl

theorem generateTsPacketHeader_drop (o : Options) (h : offset ≤ mx.packet.length) :
    (generateTsPacketHeader o mx offset).packet.drop offset =
      tsPacketHeader o.pid mx.continuityCounter offset ++ mx.packet.drop (offset + 4) := by
  have htake : (mx.packet.take offset).length = offset := List.length_take_of_le h
  rw [generateTsPacketHeader, List.append_assoc, List.drop_append_of_le_length (by omega),
    List.drop_of_length_le (by omega), List.nil_append]

theorem generateTsPacketHeader_behind (o : Options) {i : Nat} (h : offset ≤ mx.packet.length)
    (hi : offset + 4 ≤ i) :
    (generateTsPacketHeader o mx offset).packet.drop i = mx.packet.drop i := by
  obtain ⟨j, rfl⟩ := Nat.exists_eq_add_of_le hi
  have hdrop := generateTsPacketHeader_drop o h
  have hfour : (tsPacketHeader o.pid mx.continuityCounter offset ++
      mx.packet.drop (offset + 4)).drop 4 = mx.packet.drop (offset + 4) := List.drop_left' rfl
  rw [Nat.add_assoc, ← List.drop_drop, hdrop, ← List.drop_drop, hfour, List.drop_drop,
    Nat.add_assoc]

theorem generateTsPacketHeader_length (o : Options) (h : offset + 4 ≤ mx.packet.length) :
    (generateTsPacketHeader o mx offset).packet.length = mx.packet.length := by
  rw [generateTsPacketHeader, List.length_append, List.length_append, tsPacketHeader_length,
    List.length_take_of_le (by omega), List.length_drop]
  omega

theorem insertLoop_room (serviceMask : Nat) (fixedLength : Bool) (lastLine : Nat) (b : Buffer)
    (us : List Sliced) :
    (insertLoop serviceMask fixedLength lastLine b us).buffer.packet.length +
      (insertLoop serviceMask fixedLength lastLine b us).buffer.pLeft =
      b.packet.length + b.pLeft := by
  induction us generalizing lastLine b with
  | nil => rfl
  | cons s us ih =>
    rw [insertLoop]
    split
    · exact ih lastLine b
    split
    · rfl
    dsimp only
    split
    · rfl
    · rename_i v hv
      split
      · rfl
      split
      · rfl
      · rename_i hroom
        split
        · rfl
        · rename_i l _
          rw [ih, Buffer.store_packet, Buffer.store_pLeft, List.length_append,
            dataUnit_length hv]
          omega

theorem insertRawDataUnits_room {raw : List UInt8}
    {videostdSet firstPixelPosition nPixelsTotal : Nat} {r : Buffer × List UInt8}
    (h : insertRawDataUnits b raw fixedLength videostdSet line firstPixelPosition nPixelsTotal
      true = .ok r) :
    r.1.packet.length + r.1.pLeft = b.packet.length + b.pLeft := by
  rw [insertRawDataUnits] at h
  split at h
  · cases h
  split at h
  · cases h
  dsimp only at h
  -- the line number in its field
  split at h
  all_goals
    split at h
    · cases h
    · cases h
      exact (rawLoop_room _ rfl).1

theorem insertRawLine_room {b' : Buffer} {left : List UInt8} {sp : SamplingPar}
    (h : insertRawLine fixedLength f b pending line = .stored b' left sp) :
    b'.packet.length + b'.pLeft = b.packet.length + b.pLeft := by
  rw [insertRawLine] at h
  split at h
  · split at h
    · split at h
      · cases h
      · cases h
    · cases h
  · split at h
    · cases h
    split at h
    · cases h
    split at h
    · cases h
    · rename_i hr
      cases h
      exact insertRawDataUnits_room hr

theorem generateLoop_room {lastLine : Nat} {span us : List Sliced} {g : Generation}
    (h : generateLoop fixedLength f lastLine span b pending us = .ok g) :
    g.buffer.packet.length + g.buffer.pLeft = b.packet.length + b.pLeft := by
  have hspan : ∀ b span,
      (insertSlicedDataUnits f.serviceMask fixedLength b span).buffer.packet.length +
        (insertSlicedDataUnits f.serviceMask fixedLength b span).buffer.pLeft =
      b.packet.length + b.pLeft := fun b span => insertLoop_room _ _ _ _ _
  induction us generalizing lastLine span b pending with
  | nil =>
    cases h
    exact hspan b span
  | cons s us ih =>
    rw [generateLoop] at h
    split at h
    · cases h
      rfl
    dsimp only at h
    split at h
    · exact ih h
    split at h
    · cases h
      exact hspan b span
    split at h
    · rw [ih h]
      exact hspan b span
    split at h
    · cases h
    · cases h
      exact hspan b span
    · rename_i hraw
      have hline := insertRawLine_room hraw
      split at h
      · rw [ih h, hline]
        exact hspan b span
      · cases h
        exact hline.trans (hspan b span)

theorem stuffingSize_le {maxSize : Nat} (hmin : 184 ∣ minSize) (hmax : 184 ∣ maxSize)
    (hle : minSize ≤ maxSize) (h : size ≤ maxSize) :
    size + stuffingSize minSize size ≤ maxSize := by
  rw [stuffingSize]
  split
  · omega
  split
  · omega
  · exact h

/-- The cases of `generate_pes_packet()`. -/
theorem generatePesPacket_cases (h : generatePesPacket o mx f = .ok g) :
    g = ⟨mx.raw, f.sliced, .error .rawDataInterruption⟩ ∨
      interrupted mx f = .ok false ∧
        ∃ e, encodeLines o mx f = .ok e ∧ finishPacket o f e = .ok g := by
  simp only [generatePesPacket] at h
  cases hi : interrupted mx f with
  | error e =>
    rw [hi] at h
    cases h
  | ok stop =>
    rw [hi] at h
    cases stop with
    | true =>
      cases h
      exact Or.inl rfl
    | false =>
      cases he : encodeLines o mx f with
      | error e =>
        rw [he] at h
        cases h
      | ok e =>
        rw [he] at h
        exact Or.inr ⟨rfl, e, rfl, h⟩

theorem finishPacket_ok {e : Generation} (h : finishPacket o f e = .ok g)
    (hpes : g.packet = .ok pes) :
    ∃ units, encodeStuffing
        { e.buffer with pLeft := stuffingSize o.size.min (46 + e.buffer.packet.length) }
        (fixedLengthFormat o.dataIdentifier) = some units ∧
      e.err = none ∧ g.raw = e.raw ∧ g.rest = e.rest ∧
      pes = pesPacketHeader (46 + e.buffer.packet.length +
        stuffingSize o.size.min (46 + e.buffer.packet.length)) f.pts o.dataIdentifier ++ units := by
  rw [finishPacket] at h
  split at h
  · cases h
    cases hpes
  · rename_i herr
    dsimp only at h
    split at h
    · cases h
    · rename_i units hunits
      cases h
      cases hpes
      exact ⟨units, hunits, herr, rfl, rfl, rfl⟩

/-- A packet consists of one payload or more, and is not too large. -/
theorem generated_length (h : generatePesPacket o mx f = .ok g) (hpes : g.packet = .ok pes) :
    184 ∣ pes.length ∧ 184 ≤ pes.length ∧ pes.length ≤ maxPesPacketSize := by
  rcases generatePesPacket_cases h with rfl | ⟨-, e, he, hfinish⟩
  · cases hpes
  obtain ⟨units, hunits, -, -, -, rfl⟩ := finishPacket_ok hfinish hpes
  have hlength := encodeStuffing_length hunits
  dsimp only at hlength
  rw [List.length_append, pesPacketHeader_length, hlength, ← Nat.add_assoc]
  have hroom := generateLoop_room he
  dsimp only [List.length_nil] at hroom
  have hdvd : 184 ∣ 46 + e.buffer.packet.length +
      stuffingSize o.size.min (46 + e.buffer.packet.length) := stuffingSize_dvd o.size.dvd_min
  have hmin := stuffingSize_min o.size.min (46 + e.buffer.packet.length)
  have hpos := o.size.pos
  have hminDvd := o.size.dvd_min
  have hmaxDvd := o.size.dvd_max
  have hminMax := o.size.min_le_max
  have hmax := o.size.max_le
  have hle := stuffingSize_le hminDvd hmaxDvd hminMax
    (by omega : 46 + e.buffer.packet.length ≤ o.size.max)
  exact ⟨hdvd, by omega, by omega⟩

/-- A callback function which takes every packet. -/
def accept : Callback := fun _ => true

/-- The packets of the loop of `vbi_dvb_mux_feed()`. -/
theorem feedLoop_spec (o : Options) {k fuel : Nat} (hk : 0 < k) (hfuel : k ≤ fuel)
    (hlength : offset + 4 + 184 * k ≤ mx.packet.length) (packets : List (List UInt8)) :
    ∃ mx', feedLoop o accept (offset + 184 * k) fuel mx offset packets =
        ⟨mx', true, packets ++
          tsPackets o.pid k mx.continuityCounter offset (mx.packet.drop (offset + 4))⟩ ∧
      mx'.raw = mx.raw ∧ mx'.continuityCounter = mx.continuityCounter + k ∧
      mx'.packet.length = mx.packet.length ∧ mx'.corOffset = mx.corOffset ∧
      mx'.corEnd = mx.corEnd := by
  induction fuel generalizing k mx offset packets with
  | zero => omega
  | succ fuel ih =>
    obtain ⟨k, rfl⟩ : ∃ j, k = j + 1 := ⟨k - 1, by omega⟩
    have hroom : offset ≤ mx.packet.length := by omega
    have hpacket : ((generateTsPacketHeader o mx offset).packet.drop offset).take 188 =
        tsPacketHeader o.pid mx.continuityCounter offset ++
          (mx.packet.drop (offset + 4)).take 184 := by
      rw [generateTsPacketHeader_drop o hroom, take_tsPacket]
    have hsize := generateTsPacketHeader_length o (by omega : offset + 4 ≤ mx.packet.length)
    have hend : offset + 184 * (k + 1) = offset + 184 + 184 * k := by omega
    rw [feedLoop, hpacket, tsPackets_succ]
    rw [if_pos (show accept _ = true from rfl)]
    split
    · rename_i hmore
      obtain ⟨mx', hloop, hraw, hcounter, hlen, hoffset, hcorEnd⟩ := ih (by omega) (by omega)
        (by rw [hsize]; omega : offset + 184 + 4 + 184 * k ≤
          (generateTsPacketHeader o mx offset).packet.length)
        (packets ++ [tsPacketHeader o.pid mx.continuityCounter offset ++
          (mx.packet.drop (offset + 4)).take 184])
      refine ⟨mx', ?_, hraw, ?_, hlen.trans hsize, hoffset, hcorEnd⟩
      · rw [hend, hloop, generateTsPacketHeader_behind o hroom (by omega), List.append_assoc,
          List.drop_drop, generateTsPacketHeader_counter]
        congr 5
      · rw [hcounter, generateTsPacketHeader_counter]
        omega
    · have hlast : k = 0 := by omega
      subst hlast
      exact ⟨_, rfl, rfl, rfl, hsize, rfl, rfl⟩

end DvbMuxPackets
