import Mathlib.Data.Nat.Bitwise
import Mathlib.Logic.Function.Basic
import Zvbi.VpsProgramId

/-!
# Encoding VPS packets

The network code and the programme label share three bytes, which are written by one function
after the other. A network code which stands for two networks is not decoded as it was
encoded.
-/

namespace VpsEncoding
open VpsProgramId

/-- `buffer[i] = value`. -/
def setByte (buffer : Packet) (i value : Nat) : Packet :=
  Function.update buffer i (UInt8.ofNat value)

def vbiEncodeVpsCni (buffer : Packet) (cni : Nat) : Bool × Packet :=
  if 0x0FFF < cni then
    (false, buffer)
  else
    let buffer := setByte buffer 8 (((buffer 8).toNat &&& 0x3F) ||| (cni &&& 0xC0))
    let buffer := setByte buffer 10 (((buffer 10).toNat &&& 0xFC) ||| cni >>> 10)
    let buffer := setByte buffer 11 ((cni &&& 0x3F) ||| (cni >>> 2 &&& 0xC0))
    (true, buffer)

def vbiEncodeVpsPdc (buffer : Packet) (pid : ProgramId) : Bool × Packet :=
  if 0xFF < pid.pty then
    (false, buffer)
  else if 3 < pid.pcsAudio then
    (false, buffer)
  else if 0xFFFFF < pid.pil then
    (false, buffer)
  else
    match vbiEncodeVpsCni buffer pid.cni with
    | (false, buffer) => (false, buffer)
    | (true, buffer) =>
      let buffer := setByte buffer 2 (((buffer 2).toNat &&& 0x3F) ||| pid.pcsAudio <<< 6)
      let buffer := setByte buffer 8 (((buffer 8).toNat &&& 0xC0) ||| (pid.pil >>> 14 &&& 0x3F))
      let buffer := setByte buffer 9 (pid.pil >>> 6)
      let buffer := setByte buffer 10 (((buffer 10).toNat &&& 0x03) ||| pid.pil <<< 2)
      let buffer := setByte buffer 12 pid.pty
      (true, buffer)

def fieldMask : Nat → UInt8
  | 2 => 0xC0
  | 8 | 9 | 10 | 11 | 12 => 0xFF
  | _ => 0

def SameElsewhere (a b : Packet) : Prop := ∀ i, a i &&& ~~~fieldMask i = b i &&& ~~~fieldMask i

def rawCni (buffer : Packet) : Nat :=
  (buffer 10).toNat % 4 * 1024 + (buffer 11).toNat / 64 * 256 + (buffer 8).toNat / 64 * 64 +
    (buffer 11).toNat % 64

structure InRange (pid : ProgramId) : Prop where
  cni : pid.cni ≤ 0xFFF
  pil : pid.pil ≤ 0xFFFFF
  pcsAudio : pid.pcsAudio ≤ 3
  pty : pid.pty ≤ 0xFF

/-- A label which fits is stored where the decoder finds it and nothing else changes, and one
which does not is refused. -/
structure Encodes (buffer : Packet) (pid : ProgramId) : Prop where
  refused : ¬ InRange pid → vbiEncodeVpsPdc buffer pid = (false, buffer)
  accepted : InRange pid → (vbiEncodeVpsPdc buffer pid).1 = true
  elsewhere : SameElsewhere (vbiEncodeVpsPdc buffer pid).2 buffer
  cni : InRange pid → pid.cni ≠ 0xDC3 →
    (vbiDecodeVpsPdc (vbiEncodeVpsPdc buffer pid).2).cni = pid.cni
  pil : InRange pid → (vbiDecodeVpsPdc (vbiEncodeVpsPdc buffer pid).2).pil = pid.pil
  pcsAudio : InRange pid →
    (vbiDecodeVpsPdc (vbiEncodeVpsPdc buffer pid).2).pcsAudio = pid.pcsAudio
  pty : InRange pid → (vbiDecodeVpsPdc (vbiEncodeVpsPdc buffer pid).2).pty = pid.pty

/-- What was decoded is encoded as it was, into any packet with the same other bits. -/
def Reproduced (buffer : Packet) : Prop :=
  rawCni buffer ≠ 0xDC3 → ∀ target, SameElsewhere target buffer →
    vbiEncodeVpsPdc target (vbiDecodeVpsPdc buffer) = (true, buffer)

theorem and_bits67 (x : Nat) : x &&& 0xC0 = 64 * (x / 64 % 4) := by
  have hbyte : ∀ x < 256, x &&& 0xC0 = 64 * (x / 64 % 4) := by decide +kernel
  have hlow : x &&& 0xC0 = (x % 256) &&& 0xC0 := by
    have hle : x &&& 0xC0 ≤ 0xC0 := Nat.and_le_right
    have hmod : (x &&& 0xC0) % 2 ^ 8 = (x % 2 ^ 8) &&& 0xC0 := Nat.and_mod_two_pow
    rw [Nat.mod_eq_of_lt (by omega)] at hmod
    exact hmod
  rw [hlow, hbyte _ (Nat.mod_lt _ (by decide))]
  omega

theorem and_low6 (x : Nat) : x &&& 0x3F = x % 64 := Nat.and_two_pow_sub_one_eq_mod x 6

theorem and_low2 (x : Nat) : x &&& 0x03 = x % 4 := Nat.and_two_pow_sub_one_eq_mod x 2

variable {a b : Nat} {pid : ProgramId} {buffer encoded : Packet}

theorem or_bits67 (h : b < 64) : 64 * a ||| b = 64 * a + b :=
  (@Nat.two_pow_add_eq_or_of_lt 6 b h a).symm

theorem or_low2 (h : b < 4) : 4 * a ||| b = 4 * a + b :=
  (@Nat.two_pow_add_eq_or_of_lt 2 b h a).symm

theorem toNat_byte {n : Nat} (h : n < 256) : (UInt8.ofNat n).toNat = n := by
  rw [UInt8.toNat_ofNat']
  exact Nat.mod_eq_of_lt h

theorem decode_cni (buffer : Packet) :
    (vbiDecodeVpsPdc buffer).cni = if rawCni buffer = 0xDC3 then
      if (buffer 2).toNat &&& 0x10 ≠ 0 then 0xDC1 else 0xDC2 else rawCni buffer := by
  have hraw : ((buffer 10).toNat &&& 0x03) <<< 10 + ((buffer 11).toNat &&& 0xC0) <<< 2 +
      ((buffer 8).toNat &&& 0xC0) + ((buffer 11).toNat &&& 0x3F) = rawCni buffer := by
    have h8 := (buffer 8).toNat_lt
    have h11 := (buffer 11).toNat_lt
    rw [and_low2, and_bits67, and_bits67, and_low6, Nat.shiftLeft_eq, Nat.shiftLeft_eq, rawCni]
    omega
  rw [vbiDecodeVpsPdc, vbiDecodeVpsCni, hraw]

theorem decode_pil (buffer : Packet) :
    (vbiDecodeVpsPdc buffer).pil =
      (buffer 8).toNat % 64 * 16384 + (buffer 9).toNat * 64 + (buffer 10).toNat / 4 := by
  rw [vbiDecodeVpsPdc, and_low6, Nat.shiftLeft_eq, Nat.shiftLeft_eq, Nat.shiftRight_eq_div_pow]

theorem decode_pcsAudio (buffer : Packet) :
    (vbiDecodeVpsPdc buffer).pcsAudio = (buffer 2).toNat / 64 := by
  simp [vbiDecodeVpsPdc, Nat.shiftRight_eq_div_pow]

theorem encode_refused (buffer : Packet) (h : ¬ InRange pid) :
    vbiEncodeVpsPdc buffer pid = (false, buffer) := by
  rw [vbiEncodeVpsPdc]
  split
  · rfl
  split
  · rfl
  split
  · rfl
  · rename_i hpty haudio hpil
    have hcni : 0xFFF < pid.cni := by
      by_contra hle
      exact h ⟨by omega, by omega, by omega, by omega⟩
    rw [vbiEncodeVpsCni, if_pos hcni]

/-- The bytes which are written; the others are those of `buffer`. -/
structure Written (buffer encoded : Packet) (pid : ProgramId) : Prop where
  byte2 : (encoded 2).toNat = (buffer 2).toNat % 64 + 64 * pid.pcsAudio
  byte8 : (encoded 8).toNat = 64 * (pid.cni / 64 % 4) + pid.pil / 16384
  byte9 : (encoded 9).toNat = pid.pil / 64 % 256
  byte10 : (encoded 10).toNat = pid.cni / 1024 + 4 * (pid.pil % 64)
  byte11 : (encoded 11).toNat = pid.cni % 64 + 64 * (pid.cni / 256 % 4)
  byte12 : (encoded 12).toNat = pid.pty
  others : ∀ i, fieldMask i = 0 → encoded i = buffer i

theorem encode_written (buffer : Packet) (h : InRange pid) :
    (vbiEncodeVpsPdc buffer pid).1 = true ∧
      Written buffer (vbiEncodeVpsPdc buffer pid).2 pid := by
  obtain ⟨hcni, hpil, haudio, hpty⟩ := h
  -- what the first function leaves in the bytes which the second one completes
  have hbyte8 : (UInt8.ofNat (((buffer 8).toNat &&& 0x3F) ||| (pid.cni &&& 0xC0))).toNat &&&
      0xC0 = 64 * (pid.cni / 64 % 4) := by
    have hlow := Nat.mod_lt (buffer 8).toNat (by decide : 0 < 64)
    rw [and_low6, and_bits67 pid.cni, Nat.or_comm, or_bits67 hlow, toNat_byte (by omega),
      and_bits67]
    omega
  have hbyte10 : (UInt8.ofNat (((buffer 10).toNat &&& 0xFC) ||| pid.cni >>> 10)).toNat &&&
      0x03 = pid.cni / 1024 := by
    have hall : ∀ b < 256, ∀ c < 4, (b &&& 0xFC ||| c) % 256 % 4 = c := by decide +kernel
    rw [and_low2, UInt8.toNat_ofNat', Nat.shiftRight_eq_div_pow]
    exact hall _ (buffer 10).toNat_lt _ (by omega)
  rw [vbiEncodeVpsPdc, if_neg (by omega), if_neg (by omega), if_neg (by omega),
    vbiEncodeVpsCni, if_neg (by omega)]
  refine ⟨rfl, ⟨?_, ?_, ?_, ?_, ?_, ?_, ?_⟩⟩
  · change (UInt8.ofNat (((buffer 2).toNat &&& 0x3F) ||| pid.pcsAudio <<< 6)).toNat = _
    have hlow := Nat.mod_lt (buffer 2).toNat (by decide : 0 < 64)
    rw [and_low6, Nat.shiftLeft_eq, Nat.mul_comm pid.pcsAudio, Nat.or_comm, or_bits67 hlow,
      toNat_byte (by omega)]
    omega
  · change (UInt8.ofNat ((UInt8.ofNat _).toNat &&& 0xC0 ||| (pid.pil >>> 14 &&& 0x3F))).toNat = _
    rw [hbyte8, and_low6, Nat.shiftRight_eq_div_pow, or_bits67 (by omega),
      toNat_byte (by omega)]
    omega
  · change (UInt8.ofNat (pid.pil >>> 6)).toNat = _
    rw [UInt8.toNat_ofNat', Nat.shiftRight_eq_div_pow]
  · change (UInt8.ofNat ((UInt8.ofNat (((buffer 10).toNat &&& 0xFC) ||| pid.cni >>> 10)).toNat &&&
      0x03 ||| pid.pil <<< 2)).toNat = _
    rw [hbyte10, Nat.shiftLeft_eq, Nat.mul_comm pid.pil, Nat.or_comm, or_low2 (by omega),
      UInt8.toNat_ofNat']
    omega
  · change (UInt8.ofNat ((pid.cni &&& 0x3F) ||| (pid.cni >>> 2 &&& 0xC0))).toNat = _
    rw [and_low6, and_bits67, Nat.shiftRight_eq_div_pow, Nat.or_comm, or_bits67 (by omega),
      toNat_byte (by omega)]
    omega
  · exact toNat_byte (by omega)
  · intro i hi
    have hne : i ≠ 2 ∧ i ≠ 8 ∧ i ≠ 9 ∧ i ≠ 10 ∧ i ≠ 11 ∧ i ≠ 12 := by
      refine ⟨?_, ?_, ?_, ?_, ?_, ?_⟩
      all_goals
        rintro rfl
        exact absurd hi (by decide)
    simp [setByte, hne]

theorem fieldMask_cases (i : Nat) : fieldMask i = 0 ∨ i = 2 ∨
    fieldMask i = 0xFF ∧ (i = 8 ∨ i = 9 ∨ i = 10 ∨ i = 11 ∨ i = 12) := by
  unfold fieldMask
  split
  all_goals simp

theorem Written.parts (h : Written buffer encoded pid) (hrange : InRange pid) :
    ((encoded 8).toNat / 64 = pid.cni / 64 % 4 ∧ (encoded 8).toNat % 64 = pid.pil / 16384) ∧
      ((encoded 10).toNat % 4 = pid.cni / 1024 ∧ (encoded 10).toNat / 4 = pid.pil % 64) ∧
      (encoded 11).toNat / 64 = pid.cni / 256 % 4 ∧ (encoded 11).toNat % 64 = pid.cni % 64 := by
  have hcni := hrange.cni
  have hpil := hrange.pil
  rw [h.byte8, h.byte10, h.byte11]
  refine ⟨⟨?_, ?_⟩, ⟨?_, ?_⟩, ?_, ?_⟩
  all_goals omega

theorem Written.elsewhere (h : Written buffer encoded pid) : SameElsewhere encoded buffer := by
  intro i
  rcases fieldMask_cases i with hnone | rfl | ⟨hfull, -⟩
  · rw [h.others i hnone]
  · have hlow : ∀ b c : UInt8, b.toNat % 64 = c.toNat % 64 → b &&& 0x3F = c &&& 0x3F := by
      intro b c hbc
      rw [← UInt8.toNat_inj, UInt8.toNat_and, UInt8.toNat_and]
      exact (and_low6 _).trans (hbc.trans (and_low6 _).symm)
    refine hlow _ _ ?_
    rw [h.byte2]
    omega
  · have hnone : ~~~(0xFF : UInt8) = 0 := by decide
    rw [hfull, hnone, UInt8.and_zero, UInt8.and_zero]

theorem encodes (buffer : Packet) (pid : ProgramId) : Encodes buffer pid := by
  by_cases hrange : InRange pid
  · obtain ⟨haccepted, hwritten⟩ := encode_written buffer hrange
    have hcni := hrange.cni
    have hpil := hrange.pil
    have haudio := hrange.pcsAudio
    obtain ⟨⟨h8, h8'⟩, ⟨h10, h10'⟩, h11, h11'⟩ := hwritten.parts hrange
    constructor
    · exact fun h => absurd hrange h
    · exact fun _ => haccepted
    · exact hwritten.elsewhere
    · intro _ hne
      have hraw : rawCni (vbiEncodeVpsPdc buffer pid).2 = pid.cni := by
        rw [rawCni, h8, h10, h11, h11']
        omega
      rw [decode_cni, hraw, if_neg hne]
    · intro _
      rw [decode_pil, h8', hwritten.byte9, h10']
      omega
    · intro _
      have hbyte := hwritten.byte2
      rw [decode_pcsAudio]
      omega
    · exact fun _ => hwritten.byte12
  · constructor
    · exact fun _ => encode_refused buffer hrange
    · exact fun h => absurd h hrange
    · rw [encode_refused buffer hrange]
      exact fun _ => rfl
    all_goals exact fun h => absurd h hrange

theorem inRange_decoded (buffer : Packet) : InRange (vbiDecodeVpsPdc buffer) := by
  have h2 := (buffer 2).toNat_lt
  have h8 := (buffer 8).toNat_lt
  have h9 := (buffer 9).toNat_lt
  have h10 := (buffer 10).toNat_lt
  have h11 := (buffer 11).toNat_lt
  have h12 := (buffer 12).toNat_lt
  constructor
  · rw [decode_cni]
    split_ifs
    · decide
    · decide
    · rw [rawCni]
      omega
  · rw [decode_pil]
    omega
  · rw [decode_pcsAudio]
    omega
  · change (buffer 12).toNat ≤ 0xFF
    omega

theorem reproduced (buffer : Packet) : Reproduced buffer := by
  intro hraw target hsame
  obtain ⟨haccepted, hwritten⟩ := encode_written target (inRange_decoded buffer)
  have hcni : (vbiDecodeVpsPdc buffer).cni = rawCni buffer := by
    rw [decode_cni, if_neg hraw]
  have h8 := (buffer 8).toNat_lt
  have h9 := (buffer 9).toNat_lt
  have h10 := (buffer 10).toNat_lt
  have h11 := (buffer 11).toNat_lt
  have hbits : (rawCni buffer / 64 % 4 = (buffer 8).toNat / 64 ∧
      rawCni buffer / 1024 = (buffer 10).toNat % 4) ∧
      rawCni buffer % 64 = (buffer 11).toNat % 64 ∧
      rawCni buffer / 256 % 4 = (buffer 11).toNat / 64 := by
    rw [rawCni]
    refine ⟨⟨?_, ?_⟩, ?_, ?_⟩
    all_goals omega
  obtain ⟨⟨hbits8, hbits10⟩, hlow11, hbits11⟩ := hbits
  refine Prod.ext haccepted (funext fun i => ?_)
  change (vbiEncodeVpsPdc target (vbiDecodeVpsPdc buffer)).2 i = buffer i
  rcases fieldMask_cases i with hnone | rfl | ⟨-, hi⟩
  · have hother := hsame i
    rw [hnone] at hother
    rw [hwritten.others i hnone]
    simpa using hother
  · have hlow := congrArg UInt8.toNat (hsame 2)
    rw [UInt8.toNat_and, UInt8.toNat_and] at hlow
    have hmask : (target 2).toNat % 64 = (buffer 2).toNat % 64 :=
      (and_low6 _).symm.trans (hlow.trans (and_low6 _))
    rw [← UInt8.toNat_inj, hwritten.byte2, decode_pcsAudio, hmask]
    omega
  · rw [← UInt8.toNat_inj]
    rcases hi with rfl | rfl | rfl | rfl | rfl
    · rw [hwritten.byte8, hcni, decode_pil, hbits8]
      omega
    · have hhigh : ((buffer 8).toNat % 64 * 16384 + (buffer 9).toNat * 64 +
          (buffer 10).toNat / 4) / 64 = (buffer 8).toNat % 64 * 256 + (buffer 9).toNat := by
        omega
      rw [hwritten.byte9, decode_pil, hhigh]
      omega
    · rw [hwritten.byte10, hcni, decode_pil, hbits10]
      omega
    · rw [hwritten.byte11, hcni, hlow11, hbits11]
      omega
    · exact hwritten.byte12

/-- Encoding and decoding are inverse to each other, except for the CNI which stands for two
networks. -/
theorem vps_codec (buffer : Packet) (pid : ProgramId) :
    Encodes buffer pid ∧ Reproduced buffer :=
  ⟨encodes buffer pid, reproduced buffer⟩

/-- A label as it is received. -/
def received (pid : ProgramId) : ProgramId :=
  { pid with channel := .vps, cniType := .vps, mi := true }

end VpsEncoding
