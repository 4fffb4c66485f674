import Zvbi.GuardedRuns
import Zvbi.IdlDemux

/-!
# Losses in an Independent Data Line service

A service transmits numbered packets, each of them several times. The receiver
misses some transmissions and gets others with a wrong checksum. What the
callback should hear of this is stated over the numbers of the packets, which
the demultiplexer does not know.
-/

namespace IdlService
open Hamming IdlDemux GuardedRuns

inductive Reading where
  | uncorrectable
  /-- Another channel, format or address. -/
  | foreign
  | addressed (ft : Nat) (f : Fields)

def read (channel address : Int) (p : Packet) : Reading :=
  if Int.lor (vbiUnham8 (p.byte 0)) (vbiUnham8 (p.byte 1)) < 0 then .uncorrectable
  else if 15 ≠ vbiUnham8 (p.byte 1) ∨ vbiUnham8 (p.byte 0) ≠ channel then .foreign
  else if vbiUnham8 (p.byte 2) < 0 then .uncorrectable
  else if (vbiUnham8 (p.byte 2)).toNat &&& 1 ≠ 0 then .foreign
  else if vbiUnham8 (p.byte 3) < 0 then .uncorrectable
  else if (vbiUnham8 (p.byte 3)).toNat &&& 7 = 7 then .foreign
  else if spa p ((vbiUnham8 (p.byte 3)).toNat &&& 7) < 0 then .uncorrectable
  else if spa p ((vbiUnham8 (p.byte 3)).toNat &&& 7) ≠ address then .foreign
  else .addressed (vbiUnham8 (p.byte 2)).toNat
    (fields p (vbiUnham8 (p.byte 2)).toNat ((vbiUnham8 (p.byte 3)).toNat &&& 7))

def Reading.outcome (callback : Delivery → Bool) (dx : Demux) (p : Packet) : Reading → Outcome
  | .uncorrectable => ⟨dx, none, false⟩
  | .foreign => ⟨dx, none, true⟩
  | .addressed ft f => receive callback dx p ft f

theorem feed_eq (callback : Delivery → Bool) (dx : Demux) (p : Packet) :
    feed callback dx p = (read dx.channel dx.address p).outcome callback dx p := by
  simp only [feed, idlADemuxFeed, read]
  by_cases h1 : Int.lor (vbiUnham8 (p.byte 0)) (vbiUnham8 (p.byte 1)) < 0
  · rw [if_pos h1, if_pos h1, Reading.outcome]
  rw [if_neg h1, if_neg h1]
  by_cases h2 : 15 ≠ vbiUnham8 (p.byte 1) ∨ vbiUnham8 (p.byte 0) ≠ dx.channel
  · rw [if_pos h2, if_pos h2, Reading.outcome]
  rw [if_neg h2, if_neg h2]
  by_cases h3 : vbiUnham8 (p.byte 2) < 0
  · rw [if_pos h3, if_pos h3, Reading.outcome]
  rw [if_neg h3, if_neg h3]
  by_cases h4 : (vbiUnham8 (p.byte 2)).toNat &&& 1 = 0
  · rw [if_pos h4, if_neg (not_not.mpr h4)]
    by_cases h5 : vbiUnham8 (p.byte 3) < 0
    · rw [if_pos h5, if_pos h5, Reading.outcome]
    rw [if_neg h5, if_neg h5]
    by_cases h6 : (vbiUnham8 (p.byte 3)).toNat &&& 7 = 7
    · rw [if_pos h6, if_pos h6, Reading.outcome]
    rw [if_neg h6, if_neg h6]
    by_cases h7 : spa p ((vbiUnham8 (p.byte 3)).toNat &&& 7) < 0
    · rw [if_pos h7, if_pos h7, Reading.outcome]
    rw [if_neg h7, if_neg h7]
    by_cases h8 : spa p ((vbiUnham8 (p.byte 3)).toNat &&& 7) ≠ dx.address
    · rw [if_pos h8, if_pos h8, Reading.outcome]
    · rw [if_neg h8, if_neg h8, Reading.outcome]
  · rw [if_neg h4, if_pos h4, Reading.outcome]

/-- The transmissions of a service, `packet n k` being the `k`-th repeat of
packet `n`. -/
structure Service where
  channel : Int
  address : Int
  repeats : Nat → Nat
  data : Nat → List UInt8
  packet : Nat → Nat → Packet
  repeats_le : ∀ n, repeats n ≤ 15
  intact : ∀ n k, k ≤ repeats n → ∃ ft f, read channel address (packet n k) = .addressed ft f ∧
    f.crc = 0 ∧ f.ri % 16 = k ∧ (f.ri &&& 0x80 ≠ 0 ↔ k < repeats n) ∧ f.ci = n % 256 ∧
    userData (packet n k) ft f = data n

def Corrupt (service : Service) (p : Packet) : Prop :=
  match read service.channel service.address p with
  | .uncorrectable => True
  | .foreign => False
  | .addressed _ f => f.crc ≠ 0

structure Receipt (service : Service) where
  number : Nat
  copy : Nat
  copy_le : copy ≤ service.repeats number
  damaged : Option Packet
  corrupt : ∀ p ∈ damaged, Corrupt service p

variable {service : Service}

def Receipt.packet (r : Receipt service) : Packet :=
  r.damaged.getD (service.packet r.number r.copy)

/-- The numbers of the packets which were delivered or received with errors, the
last one first. -/
structure Record where
  delivered : List Nat
  damaged : List Nat

structure Recorded where
  dx : Demux
  record : Record

def Record.add (record : Record) (r : Receipt service) (delivered : Bool) : Record :=
  ⟨if delivered then r.number :: record.delivered else record.delivered,
    if r.damaged.isSome then r.number :: record.damaged else record.damaged⟩

def step (callback : Delivery → Bool) (s : Recorded) (r : Receipt service) : Option Recorded :=
  let o := feed callback s.dx r.packet
  some ⟨o.dx, s.record.add r o.delivered.isSome⟩

/-- Between the last callback and packet `n` there is a gap in the continuity
index, or a packet with errors which was not delivered. -/
def Loss (record : Record) (n : Nat) : Prop :=
  (∃ last ∈ record.delivered.head?, (last + 1) % 256 ≠ n % 256) ∨
    ∃ m ∈ record.damaged, m < n ∧ ∀ last ∈ record.delivered.head?, last < m

instance (record : Record) (n : Nat) : Decidable (Loss record n) :=
  inferInstanceAs (Decidable (_ ∨ _))

/-- A callback is told of a loss exactly if there was one, and gets no packet
for the second time. -/
def CallbackRight (callback : Delivery → Bool) (s : Recorded) (r : Receipt service) : Prop :=
  ∀ d ∈ (feed callback s.dx r.packet).delivered,
    (d.flags &&& vbiIdlDataLost ≠ 0 ↔ Loss s.record r.number) ∧ r.number ∉ s.record.delivered

/-- A packet without errors which the demultiplexer accepts, a first copy or the
repeat it waits for, follows no loss and is not one which was delivered. -/
def Undisturbed (s : Recorded) (r : Receipt service) : Prop :=
  r.damaged = none → unexpectedRepeat s.dx r.copy = false →
    ¬ Loss s.record r.number ∧ r.number ∉ s.record.delivered

variable {a b crc : Nat} {dx : Demux} {s : Recorded}

/-- Only the number of a repeat matters, not the other bits of its indicator. -/
theorem repeat_bits (h : a % 16 = b % 16) (c : Nat) :
    (a ^^^ c) &&& 0xF = (b ^^^ c) &&& 0xF := by
  rw [Nat.and_xor_distrib_right, Nat.and_xor_distrib_right]
  have hmask : ∀ n : Nat, n &&& 0xF = n % 16 := fun n => Nat.and_two_pow_sub_one_eq_mod n 4
  rw [hmask a, hmask b, h]

theorem unexpectedRepeat_congr (dx : Demux) (h : a % 16 = b % 16) :
    unexpectedRepeat dx a = unexpectedRepeat dx b := by
  have hzero : a &&& 0xF = b &&& 0xF := by
    have hbits := repeat_bits h 0
    rwa [Nat.xor_zero, Nat.xor_zero] at hbits
  simp only [unexpectedRepeat, repeatsLost, repeat_bits h, hzero]

theorem deliver_not_lost (callback : Delivery → Bool) (dx : Demux) (ci : Nat)
    (buffer : List UInt8) :
    ∃ d, (deliver callback dx ci buffer).delivered = some d ∧ d.flags &&& vbiIdlDataLost = 0 := by
  refine ⟨_, rfl, ?_⟩
  dsimp only
  rw [Nat.and_assoc]
  exact Nat.and_zero _

theorem corrupt_not_delivered (callback : Delivery → Bool) {p : Packet}
    (hchannel : dx.channel = service.channel) (haddress : dx.address = service.address)
    (corrupt : Corrupt service p) : (feed callback dx p).delivered = none := by
  rw [feed_eq, hchannel, haddress]
  rw [Corrupt] at corrupt
  cases hread : read service.channel service.address p with
  | uncorrectable => rfl
  | foreign => rfl
  | addressed ft f =>
    rw [hread] at corrupt
    have hcrc : f.crc ≠ 0 := corrupt
    simp only [Reading.outcome, receive, if_pos hcrc]
    split
    · rfl
    · rfl

/-- A packet without errors is delivered unless it is an unexpected repeat. -/
theorem intact_delivered (callback : Delivery → Bool) (hchannel : dx.channel = service.channel)
    (haddress : dx.address = service.address) {n k : Nat} (hk : k ≤ service.repeats n) :
    unexpectedRepeat dx k = true ∧ (feed callback dx (service.packet n k)).delivered = none ∨
    unexpectedRepeat dx k = false ∧ ∃ d, (feed callback dx (service.packet n k)).delivered =
      some d ∧ d.flags &&& vbiIdlDataLost = 0 := by
  obtain ⟨ft, f, hread, hcrc, hri, -⟩ := service.intact n k hk
  have hcopy : unexpectedRepeat dx f.ri = unexpectedRepeat dx k := by
    apply unexpectedRepeat_congr
    have hmax := service.repeats_le n
    omega
  rw [feed_eq, hchannel, haddress, hread]
  simp only [Reading.outcome, receive, if_neg (not_not.mpr hcrc), hcopy]
  cases unexpectedRepeat dx k with
  | true => exact Or.inl ⟨rfl, rfl⟩
  | false => exact Or.inr ⟨rfl, deliver_not_lost callback _ _ _⟩

def Tuned (service : Service) (s : Recorded) : Prop :=
  s.dx.channel = service.channel ∧ s.dx.address = service.address

theorem receive_keeps_address (callback : Delivery → Bool) (dx : Demux) (p : Packet) (ft : Nat)
    (f : Fields) : (receive callback dx p ft f).dx.channel = dx.channel ∧
      (receive callback dx p ft f).dx.address = dx.address := by
  simp only [receive]
  split
  · split
    · exact ⟨rfl, rfl⟩
    · exact ⟨rfl, rfl⟩
  · split
    · split
      · exact ⟨rfl, rfl⟩
      · exact ⟨rfl, rfl⟩
    · simp only [deliver]
      split
      · exact ⟨rfl, rfl⟩
      · exact ⟨rfl, rfl⟩

theorem step_tuned (callback : Delivery → Bool) {t : Recorded} {r : Receipt service}
    (h : Tuned service s) (hstep : step callback s r = some t) : Tuned service t := by
  cases hstep
  have hkeeps : (feed callback s.dx r.packet).dx.channel = s.dx.channel ∧
      (feed callback s.dx r.packet).dx.address = s.dx.address := by
    rw [feed_eq]
    cases read s.dx.channel s.dx.address r.packet with
    | uncorrectable => exact ⟨rfl, rfl⟩
    | foreign => exact ⟨rfl, rfl⟩
    | addressed ft f => exact receive_keeps_address callback s.dx r.packet ft f
  exact ⟨hkeeps.1.trans h.1, hkeeps.2.trans h.2⟩

theorem callbackRight_iff (callback : Delivery → Bool) (h : Tuned service s) (r : Receipt service) :
    CallbackRight callback s r ↔ Undisturbed s r := by
  cases hdamaged : r.damaged with
  | some p =>
    have hpacket : r.packet = p := by rw [Receipt.packet, hdamaged, Option.getD_some]
    have hnone := corrupt_not_delivered callback h.1 h.2 (r.corrupt p hdamaged)
    constructor
    · intro _ hintact
      rw [hdamaged] at hintact
      cases hintact
    · intro _ d hd
      rw [hpacket, hnone] at hd
      cases hd
  | none =>
    have hpacket : r.packet = service.packet r.number r.copy := by
      rw [Receipt.packet, hdamaged, Option.getD_none]
    rw [CallbackRight, Undisturbed, hpacket]
    rcases intact_delivered callback h.1 h.2 r.copy_le with ⟨hrepeat, hnone⟩ |
      ⟨hrepeat, d, hd, hflags⟩
    · constructor
      · intro _ _ hexpected
        rw [hrepeat] at hexpected
        cases hexpected
      · intro _ d hd
        rw [hnone] at hd
        cases hd
    · rw [hd]
      constructor
      · intro hright _ _
        obtain ⟨hloss, hnew⟩ := hright d rfl
        exact ⟨fun loss => hloss.mpr loss hflags, hnew⟩
      · intro hundisturbed e he
        cases he
        obtain ⟨hloss, hnew⟩ := hundisturbed hdamaged hrepeat
        exact ⟨⟨fun hset => absurd hflags hset, fun loss => absurd loss hloss⟩, hnew⟩

theorem crcEntry_lt {poly : Nat} (hpoly : poly < 2 ^ 16) (steps crc val : Nat)
    (hcrc : crc < 2 ^ 16) : crcEntry poly steps crc val < 2 ^ 16 := by
  induction steps generalizing crc val with
  | zero => exact hcrc
  | succ steps ih =>
    rw [crcEntry]
    apply ih
    apply Nat.xor_lt_two_pow
    · rw [Nat.shiftRight_eq_div_pow]
      omega
    · split
      · exact hpoly
      · decide

theorem crc_lt (bytes : List UInt8) (hcrc : crc < 2 ^ 16) :
    bytes.foldl crcStep crc < 2 ^ 16 := by
  induction bytes generalizing crc with
  | nil => exact hcrc
  | cons b bytes ih =>
    rw [List.foldl_cons]
    apply ih
    apply Nat.xor_lt_two_pow
    · rw [Nat.shiftRight_eq_div_pow]
      omega
    · exact crcEntry_lt (by decide) 8 0 _ (by decide)

def closing (crc : Nat) : List UInt8 := [UInt8.ofNat (crc % 256), UInt8.ofNat (crc / 256)]

theorem crcStep_low {b : UInt8} (h : b.toNat = crc % 256) : crcStep crc b = crc / 256 := by
  have hmask : crc &&& 0xFF = crc % 256 := Nat.and_two_pow_sub_one_eq_mod crc 8
  have hshift : crc >>> 8 = crc / 256 := Nat.shiftRight_eq_div_pow crc 8
  rw [crcStep, h, hmask, Nat.xor_self, hshift]
  exact Nat.xor_zero _

theorem crc_closing (bytes : List UInt8) :
    (bytes ++ closing (bytes.foldl crcStep 0)).foldl crcStep 0 = 0 := by
  have hlt : bytes.foldl crcStep 0 < 2 ^ 16 := crc_lt bytes (by decide)
  rw [List.foldl_append, closing, List.foldl_cons, List.foldl_cons, List.foldl_nil]
  have hlow : (UInt8.ofNat (bytes.foldl crcStep 0 % 256)).toNat =
      bytes.foldl crcStep 0 % 256 := by
    rw [UInt8.toNat_ofNat']
    omega
  have hhigh : (UInt8.ofNat (bytes.foldl crcStep 0 / 256)).toNat =
      bytes.foldl crcStep 0 / 256 % 256 := by
    rw [UInt8.toNat_ofNat']
  rw [crcStep_low hlow, crcStep_low hhigh]
  omega

def tickerBody (n : Nat) : List UInt8 := [UInt8.ofNat n, 33] ++ List.replicate 33 0x55

/-- Packet `n` with its repeat indicator, for three transmissions. -/
def tickerPacket (n k : Nat) : Packet :=
  ⟨[0x02, 0xEA, 0xFD, 0x15, UInt8.ofNat (k + if k < 2 then 0x80 else 0)] ++
    (tickerBody n ++ closing ((tickerBody n).foldl crcStep 0)), rfl⟩

theorem ticker_read (n k : Nat) :
    read 1 0 (tickerPacket n k) = .addressed 14 (fields (tickerPacket n k) 14 0) := by
  have h0 : vbiUnham8 ((tickerPacket n k).byte 0) = 1 := (by decide : vbiUnham8 0x02 = 1)
  have h1 : vbiUnham8 ((tickerPacket n k).byte 1) = 15 := (by decide : vbiUnham8 0xEA = 15)
  have h2 : vbiUnham8 ((tickerPacket n k).byte 2) = 14 := (by decide : vbiUnham8 0xFD = 14)
  have h3 : vbiUnham8 ((tickerPacket n k).byte 3) = 0 := (by decide : vbiUnham8 0x15 = 0)
  simp only [read, h0, h1, h2, h3]
  rfl

theorem ticker_fields (n k : Nat) : fields (tickerPacket n k) 14 0 =
    ⟨(UInt8.ofNat (k + if k < 2 then 0x80 else 0)).toNat, n % 256, 0, 2⟩ := by
  have hcrc : ((tickerPacket n k).buffer.drop 5).foldl crcStep 0 = 0 := crc_closing (tickerBody n)
  have hci : ((tickerPacket n k).byte 5).toNat = n % 256 := UInt8.toNat_ofNat'
  have hri : haveRi 14 = true := by decide
  have hhave : haveCi 14 = true := by decide
  simp only [fields, hri, hhave, if_true]
  rw [hcrc, hci]
  rfl

theorem ticker_userData (n k ri : Nat) :
    userData (tickerPacket n k) 14 ⟨ri, n % 256, 0, 2⟩ = List.replicate 33 0x55 := by
  have hdl : haveDl 14 = true := by decide
  have hlength : ((tickerPacket n k).byte (4 + 2)).toNat = 33 := rfl
  have hbytes : ((tickerPacket n k).buffer.drop (4 + (2 + 1))).take 33 = List.replicate 33 0x55 :=
    rfl
  have hmin : min (33 &&& 0x3F) (36 - (2 + 1)) = 33 := by decide
  simp only [userData, hdl, if_true, hlength, hmin, hbytes]
  split
  · rw [if_neg (by omega)]
    decide
  · split
    · decide
    · decide

def ticker : Service where
  channel := 1
  address := 0
  repeats := fun _ => 2
  data := fun _ => List.replicate 33 0x55
  packet := tickerPacket
  repeats_le := fun _ => by decide
  intact := by
    intro n k hk
    refine ⟨14, _, ticker_read n k, ?_⟩
    rw [ticker_fields]
    refine ⟨rfl, ?_, ?_, rfl, ticker_userData n k _⟩
    · dsimp only
      rw [UInt8.toNat_ofNat']
      split
      · omega
      · omega
    · have hmore : ∀ k : Fin 3, (UInt8.ofNat (k.val + if k.val < 2 then 0x80 else 0)).toNat &&&
          0x80 ≠ 0 ↔ k.val < 2 := by decide
      exact hmore ⟨k, Nat.lt_succ_of_le hk⟩

def received (n k : Nat) (h : k ≤ 2) : Receipt ticker := ⟨n, k, h, none, fun _ hp => by cases hp⟩

def damagedPacket : Packet :=
  ⟨(tickerPacket 0 1).buffer.take 41 ++ [(tickerPacket 0 1).byte 41 + 1], rfl⟩

theorem damaged_corrupt : Corrupt ticker damagedPacket := by
  have hread : (match read 1 0 damagedPacket with
    | .uncorrectable => true
    | .foreign => false
    | .addressed _ f => f.crc != 0) = true := by
    decide +kernel
  rw [Corrupt]
  change match read 1 0 damagedPacket with
    | .uncorrectable => True
    | .foreign => False
    | .addressed _ f => f.crc ≠ 0
  cases hcase : read 1 0 damagedPacket with
  | uncorrectable => trivial
  | foreign =>
    rw [hcase] at hread
    cases hread
  | addressed ft f =>
    rw [hcase] at hread
    exact bne_iff_ne.mp hread

end IdlService
