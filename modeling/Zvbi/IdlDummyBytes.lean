import Zvbi.IdlService

/-!
# Dummy bytes in Independent Data Line packets

An encoder breaks long runs of 0x00 or 0xFF in the user data with a dummy byte
behind the eighth byte of a run, whose value it may choose. The demultiplexer
drops a byte instead whenever it counted eight bytes 0x00, or 0xFF, since the
last byte it dropped, whether they were consecutive or not.
-/

namespace IdlDummyBytes
open Hamming IdlDemux IdlService

/-- The encoder, `run00` and `runFF` being the lengths of the current run. -/
def insertDummyBytes (dummy : UInt8) : Nat → Nat → List UInt8 → List UInt8
  | _, _, [] => []
  | run00, runFF, t :: ts =>
    let run00 := if t = 0x00 then run00 + 1 else 0
    let runFF := if t = 0xFF then runFF + 1 else 0
    if run00 = 8 ∨ runFF = 8 then
      t :: dummy :: insertDummyBytes dummy 0 0 ts
    else
      t :: insertDummyBytes dummy run00 runFF ts

/-- The data field of a packet with this continuity index, which is part of the
first run for some encoders and is not for others. -/
def encode (indexCounts : Bool) (dummy : UInt8) (ci : Nat) (data : List UInt8) : List UInt8 :=
  insertDummyBytes dummy (if indexCounts ∧ ci = 0x00 then 1 else 0)
    (if indexCounts ∧ ci = 0xFF then 1 else 0) data

def dataField (p : Packet) (ft : Nat) (f : Fields) : List UInt8 :=
  (p.buffer.drop (4 + if haveDl ft then f.index + 1 else f.index)).take
    (if haveDl ft then min ((p.byte (4 + f.index)).toNat &&& 0x3F) (36 - (f.index + 1))
      else 36 - f.index)

/-- A packet with a right checksum for the demultiplexer, not a repeat it has no
use for, with this continuity index and data field. -/
def Carries (dx : Demux) (p : Packet) (ci : Nat) (field : List UInt8) : Prop :=
  ∃ ft f, read dx.channel dx.address p = .addressed ft f ∧ f.crc = 0 ∧
    unexpectedRepeat dx f.ri = false ∧ f.ci = ci ∧ dataField p ft f = field

/-- Fewer than eight bytes 0x00 and fewer than eight bytes 0xFF, not only in a
run, the continuity index included. -/
def Few (ci : Nat) (data : List UInt8) : Prop :=
  data.count 0x00 + (if ci = 0x00 then 1 else 0) < 8 ∧
    data.count 0xFF + (if ci = 0xFF then 1 else 0) < 8

instance (ci : Nat) (data : List UInt8) : Decidable (Few ci data) :=
  inferInstanceAs (Decidable (_ ∧ _))

def extreme (t : UInt8) : Bool := t = 0x00 ∨ t = 0xFF

variable {hist00 histFF ci : Nat} {dummy : UInt8} {data : List UInt8} {dx : Demux}

theorem eight_counted (h00 : hist00 ≤ 8) (hFF : histFF ≤ 8) :
    (hist00 ||| histFF) &&& 8 ≠ 0 ↔ hist00 = 8 ∨ histFF = 8 := by
  have hbits : ∀ a b : Fin 9, (a.val ||| b.val) &&& 8 ≠ 0 ↔ a.val = 8 ∨ b.val = 8 := by
    decide
  exact hbits ⟨hist00, Nat.lt_succ_of_le h00⟩ ⟨histFF, Nat.lt_succ_of_le hFF⟩

/-- A counter of the demultiplexer takes over what is counted of the field. -/
theorem count_next (v t : UInt8) (ts : List UInt8) (hist : Nat) :
    ts.count v + (if t = v then hist + 1 else hist) = (t :: ts).count v + hist := by
  rw [List.count_cons]
  by_cases ht : t = v
  · simp only [ht, beq_self_eq_true, if_true]
    omega
  · rw [if_neg ht, if_neg (by simpa using ht), Nat.add_zero]

/-- What remains of a field with few extreme bytes is the field. -/
theorem skipDummyBytes_few (field : List UInt8) (h00 : field.count 0x00 + hist00 < 8)
    (hFF : field.count 0xFF + histFF < 8) : skipDummyBytes hist00 histFF field = field := by
  induction field generalizing hist00 histFF with
  | nil => rfl
  | cons t ts ih =>
    rw [← count_next] at h00 hFF
    have hnone := (eight_counted (Nat.le_of_lt (Nat.lt_of_add_left_lt h00))
      (Nat.le_of_lt (Nat.lt_of_add_left_lt hFF))).not.mpr (by omega)
    simp only [skipDummyBytes, if_neg hnone, ih h00 hFF]

theorem skipDummyBytes_extreme_le (field : List UInt8) (hist00 histFF : Nat) :
    (skipDummyBytes hist00 histFF field).countP extreme ≤ field.countP extreme := by
  induction field generalizing hist00 histFF with
  | nil => exact Nat.le_refl _
  | cons t ts ih =>
    by_cases hfull : ((if t = 0x00 then hist00 + 1 else hist00) |||
        (if t = 0xFF then histFF + 1 else histFF)) &&& 8 ≠ 0
    · simp only [skipDummyBytes, if_pos hfull]
      exact (ih 0 0).trans (List.sublist_cons_self t ts).countP_le
    · simp only [skipDummyBytes, if_neg hfull, List.countP_cons]
      exact Nat.add_le_add_right (ih _ _) _

/-- A dropped byte is missing among the extreme bytes. -/
theorem few_of_extreme_kept (field : List UInt8) (h00 : hist00 < 8) (hFF : histFF < 8)
    (hkept : (skipDummyBytes hist00 histFF field).countP extreme = field.countP extreme) :
    field.count 0x00 + hist00 < 8 ∧ field.count 0xFF + histFF < 8 := by
  induction field generalizing hist00 histFF with
  | nil =>
    rw [List.count_nil, List.count_nil, Nat.zero_add, Nat.zero_add]
    exact ⟨h00, hFF⟩
  | cons t ts ih =>
    rw [← count_next, ← count_next]
    have hle00 : (if t = 0x00 then hist00 + 1 else hist00) ≤ 8 := by
      split <;> omega
    have hleFF : (if t = 0xFF then histFF + 1 else histFF) ≤ 8 := by
      split <;> omega
    by_cases hfull : (if t = 0x00 then hist00 + 1 else hist00) = 8 ∨
        (if t = 0xFF then histFF + 1 else histFF) = 8
    · -- a full counter was raised by this byte
      have hextreme : extreme t = true := by
        rw [extreme, decide_eq_true_iff]
        rcases hfull with hfull | hfull
        · left
          by_contra ht
          rw [if_neg ht] at hfull
          omega
        · right
          by_contra ht
          rw [if_neg ht] at hfull
          omega
      simp only [skipDummyBytes, if_pos ((eight_counted hle00 hleFF).mpr hfull)] at hkept
      rw [List.countP_cons_of_pos hextreme] at hkept
      have hle := skipDummyBytes_extreme_le ts 0 0
      omega
    · simp only [skipDummyBytes, if_neg ((eight_counted hle00 hleFF).not.mpr hfull)] at hkept
      rw [List.countP_cons, List.countP_cons] at hkept
      exact ih (by omega) (by omega) (Nat.add_right_cancel hkept)

/-- Dummy bytes of another value add no extreme bytes. -/
theorem insertDummyBytes_extreme (hdummy : extreme dummy = false) (data : List UInt8)
    (run00 runFF : Nat) :
    (insertDummyBytes dummy run00 runFF data).countP extreme = data.countP extreme := by
  induction data generalizing run00 runFF with
  | nil => rfl
  | cons t ts ih =>
    by_cases hrun : (if t = 0x00 then run00 + 1 else 0) = 8 ∨
        (if t = 0xFF then runFF + 1 else 0) = 8
    · simp only [insertDummyBytes, if_pos hrun, List.countP_cons, ih, hdummy, Bool.false_eq_true,
        if_false, Nat.add_zero]
    · simp only [insertDummyBytes, if_neg hrun, List.countP_cons, ih]

/-- A run is not longer than the number of its bytes. -/
theorem insertDummyBytes_few (dummy : UInt8) (data : List UInt8) {run00 runFF : Nat}
    (h00 : data.count 0x00 + run00 < 8) (hFF : data.count 0xFF + runFF < 8) :
    insertDummyBytes dummy run00 runFF data = data := by
  induction data generalizing run00 runFF with
  | nil => rfl
  | cons t ts ih =>
    rw [← count_next] at h00 hFF
    have hle00 : (if t = 0x00 then run00 + 1 else 0) ≤ (if t = 0x00 then run00 + 1 else run00) := by
      split <;> omega
    have hleFF : (if t = 0xFF then runFF + 1 else 0) ≤ (if t = 0xFF then runFF + 1 else runFF) := by
      split <;> omega
    have hrun : ¬ ((if t = 0x00 then run00 + 1 else 0) = 8 ∨
        (if t = 0xFF then runFF + 1 else 0) = 8) := by omega
    simp only [insertDummyBytes, if_neg hrun, ih (Nat.lt_of_le_of_lt (Nat.add_le_add_left hle00 _)
      h00) (Nat.lt_of_le_of_lt (Nat.add_le_add_left hleFF _) hFF)]

theorem encode_few (indexCounts : Bool) (dummy : UInt8) (h : Few ci data) :
    encode indexCounts dummy ci data = data := by
  have hindex : ∀ v, (if indexCounts ∧ ci = v then 1 else 0) ≤ (if ci = v then 1 else 0) := by
    intro v
    split
    · rename_i hboth
      rw [if_pos hboth.2]
    · exact Nat.zero_le _
  apply insertDummyBytes_few
  · exact Nat.lt_of_le_of_lt (Nat.add_le_add_left (hindex 0x00) _) h.1
  · exact Nat.lt_of_le_of_lt (Nat.add_le_add_left (hindex 0xFF) _) h.2

theorem insertDummyBytes_length_le (dummy : UInt8) (data : List UInt8) (run00 runFF : Nat) :
    8 * (insertDummyBytes dummy run00 runFF data).length ≤ 9 * data.length + max run00 runFF := by
  induction data generalizing run00 runFF with
  | nil => exact Nat.zero_le _
  | cons t ts ih =>
    have hmax : max (if t = 0x00 then run00 + 1 else 0) (if t = 0xFF then runFF + 1 else 0) ≤
        max run00 runFF + 1 := by
      split <;> split <;> omega
    by_cases hrun : (if t = 0x00 then run00 + 1 else 0) = 8 ∨
        (if t = 0xFF then runFF + 1 else 0) = 8
    · have hrest := ih 0 0
      simp only [insertDummyBytes, if_pos hrun, List.length_cons]
      omega
    · have hrest := ih (if t = 0x00 then run00 + 1 else 0) (if t = 0xFF then runFF + 1 else 0)
      simp only [insertDummyBytes, if_neg hrun, List.length_cons]
      omega

theorem encode_length_le (indexCounts : Bool) (dummy : UInt8) (ci : Nat) (h : data.length ≤ 30) :
    (encode indexCounts dummy ci data).length ≤ 34 := by
  have hlength := insertDummyBytes_length_le dummy data
    (if indexCounts ∧ ci = 0x00 then 1 else 0) (if indexCounts ∧ ci = 0xFF then 1 else 0)
  have hmax : max (if indexCounts ∧ ci = 0x00 then 1 else 0)
      (if indexCounts ∧ ci = 0xFF then 1 else 0) ≤ 1 := by
    split <;> split <;> omega
  rw [encode]
  omega

theorem userData_eq (p : Packet) (ft : Nat) (f : Fields) :
    userData p ft f = skipDummyBytes (if f.ci = 0x00 then 1 else 0) (if f.ci = 0xFF then 1 else 0)
      (dataField p ft f) := by
  simp only [userData, dataField]

/-- Such a packet is delivered, less the bytes which are dropped. -/
theorem feed_carried (callback : Delivery → Bool) {p : Packet} {field : List UInt8}
    (h : Carries dx p ci field) :
    ∃ flags, (feed callback dx p).delivered = some ⟨skipDummyBytes (if ci = 0x00 then 1 else 0)
      (if ci = 0xFF then 1 else 0) field, flags⟩ := by
  obtain ⟨ft, f, hread, hcrc, hnew, rfl, rfl⟩ := h
  rw [feed_eq, hread]
  simp only [Reading.outcome, receive, if_neg (not_not.mpr hcrc), hnew, Bool.false_eq_true,
    if_false, deliver, userData_eq]
  exact ⟨_, rfl⟩

/-- With a dummy byte that ends the run, exactly the data with few extreme bytes
remain unchanged. -/
theorem skipDummyBytes_encode_iff (hdummy : extreme dummy = false) (indexCounts : Bool) (ci : Nat)
    (data : List UInt8) :
    skipDummyBytes (if ci = 0x00 then 1 else 0) (if ci = 0xFF then 1 else 0)
      (encode indexCounts dummy ci data) = data ↔ Few ci data := by
  constructor
  · intro hdelivered
    have hextreme := insertDummyBytes_extreme hdummy data
      (if indexCounts ∧ ci = 0x00 then 1 else 0) (if indexCounts ∧ ci = 0xFF then 1 else 0)
    have hkept : (skipDummyBytes (if ci = 0x00 then 1 else 0) (if ci = 0xFF then 1 else 0)
        (encode indexCounts dummy ci data)).countP extreme =
        (encode indexCounts dummy ci data).countP extreme := by
      rw [hdelivered]
      exact hextreme.symm
    have hfew := few_of_extreme_kept _ (by split <;> omega) (by split <;> omega) hkept
    have hsame : encode indexCounts dummy ci data = data :=
      (skipDummyBytes_few _ hfew.1 hfew.2).symm.trans hdelivered
    rw [hsame] at hfew
    exact hfew
  · rintro ⟨h00, hFF⟩
    rw [encode_few indexCounts dummy ⟨h00, hFF⟩]
    exact skipDummyBytes_few data h00 hFF

def body (ci : UInt8) (field : List UInt8) : List UInt8 :=
  ci :: UInt8.ofNat field.length :: (field ++ List.replicate (34 - field.length) 0x55)

/-- A packet on a channel, with a continuity index and data length, for address
0. -/
def packet (channel : Fin 16) (ci : UInt8) (field : List UInt8) (h : field.length ≤ 34) : Packet :=
  ⟨[vbiHam8 channel, vbiHam8 15, vbiHam8 12, vbiHam8 0] ++
    (body ci field ++ closing ((body ci field).foldl crcStep 0)), by
      simp only [body, closing, List.length_append, List.length_cons, List.length_nil,
        List.length_replicate]
      omega⟩

theorem packet_carries {channel : Fin 16} (hchannel : dx.channel = (channel.val : Int))
    (haddress : dx.address = 0) (ci : UInt8) (field : List UInt8) (h : field.length ≤ 34) :
    Carries dx (packet channel ci field h) ci.toNat field := by
  have hham : ∀ c : Fin 16, vbiUnham8 (vbiHam8 c) = (c.val : Int) := by decide
  have hlor : ∀ c : Fin 16, ¬ Int.lor (c.val : Int) 15 < 0 := by decide
  have h0 : vbiUnham8 ((packet channel ci field h).byte 0) = (channel.val : Int) := hham channel
  have h1 : vbiUnham8 ((packet channel ci field h).byte 1) = 15 := hham 15
  have h2 : vbiUnham8 ((packet channel ci field h).byte 2) = 12 := hham 12
  have h3 : vbiUnham8 ((packet channel ci field h).byte 3) = 0 := hham 0
  have hfields : fields (packet channel ci field h) 12 0 = ⟨0, ci.toNat, 0, 1⟩ := by
    have hcrc : ((packet channel ci field h).buffer.drop 4).foldl crcStep 0 = 0 :=
      crc_closing (body ci field)
    have hri : haveRi 12 = false := rfl
    have hci : haveCi 12 = true := rfl
    simp only [fields, hri, hci, if_true, Bool.false_eq_true, if_false, Nat.add_zero, hcrc]
    rfl
  have hread : read dx.channel dx.address (packet channel ci field h) =
      .addressed 12 ⟨0, ci.toNat, 0, 1⟩ := by
    have hspa : spa (packet channel ci field h) 0 = 0 := rfl
    simp only [IdlService.read, h0, h1, h2, h3, hchannel, haddress, if_neg (hlor channel)]
    rw [if_neg (by omega), if_neg (by omega), if_neg (by decide), if_neg (by omega)]
    rw [if_neg (by decide)]
    change (if spa (packet channel ci field h) 0 < 0 then _ else
      if spa (packet channel ci field h) 0 ≠ 0 then _ else _) = _
    rw [hspa, if_neg (by omega), if_neg (by omega)]
    exact congrArg _ hfields
  have hfield : dataField (packet channel ci field h) 12 ⟨0, ci.toNat, 0, 1⟩ = field := by
    have hdl : haveDl 12 = true := rfl
    have hbyte : (packet channel ci field h).byte (4 + 1) = UInt8.ofNat field.length := rfl
    have hlength : (UInt8.ofNat field.length).toNat &&& 0x3F = field.length := by
      rw [UInt8.toNat_ofNat', show 0x3F = 2 ^ 6 - 1 by rfl, Nat.and_two_pow_sub_one_eq_mod]
      omega
    have hdrop : (packet channel ci field h).buffer.drop (4 + (1 + 1)) =
        field ++ (List.replicate (34 - field.length) 0x55 ++
          closing ((body ci field).foldl crcStep 0)) := List.append_assoc _ _ _
    simp only [dataField, hdl, if_true, hbyte, hlength, hdrop]
    rw [Nat.min_eq_left (by omega), List.take_left]
  refine ⟨12, _, hread, rfl, ?_, rfl, hfield⟩
  simp [unexpectedRepeat]

def Delivers (callback : Delivery → Bool) (dx : Demux) (p : Packet) (data : List UInt8) : Prop :=
  ∃ flags, (feed callback dx p).delivered = some ⟨data, flags⟩

/-- With a dummy byte that is not extreme, only data with few extreme bytes are
delivered. -/
theorem few_of_delivers {callback : Delivery → Bool} {indexCounts : Bool} {p : Packet}
    (hdummy : extreme dummy = false) (hp : Carries dx p ci (encode indexCounts dummy ci data))
    (hdelivers : Delivers callback dx p data) : Few ci data := by
  obtain ⟨flags, hdata⟩ := hdelivers
  obtain ⟨flags', hfield⟩ := feed_carried callback hp
  rw [hfield] at hdata
  injection hdata with hdelivery
  injection hdelivery with hbuffer
  exact (skipDummyBytes_encode_iff hdummy indexCounts ci data).mp hbuffer

/-- Data which fit a packet are delivered, whatever the value of the dummy bytes,
exactly if they have few extreme bytes. -/
theorem idl_a_dummy_bytes (callback : Delivery → Bool) (dx : Demux) (indexCounts : Bool) (ci : Nat)
    (data : List UInt8) (fits : ∀ dummy, ∃ p, Carries dx p ci (encode indexCounts dummy ci data)) :
    (∀ dummy p, Carries dx p ci (encode indexCounts dummy ci data) →
      Delivers callback dx p data) ↔ Few ci data := by
  constructor
  · intro hdelivers
    obtain ⟨p, hp⟩ := fits 0x55
    exact few_of_delivers rfl hp (hdelivers 0x55 p hp)
  · intro hfew dummy p hp
    obtain ⟨flags, hfield⟩ := feed_carried callback hp
    rw [encode_few indexCounts dummy hfew, skipDummyBytes_few data hfew.1 hfew.2] at hfield
    exact ⟨flags, hfield⟩

theorem data_fits {dx : Demux} {channel : Fin 16} (hchannel : dx.channel = (channel.val : Int))
    (haddress : dx.address = 0) (indexCounts : Bool) (ci : UInt8) {data : List UInt8}
    (h : data.length ≤ 30) (dummy : UInt8) :
    ∃ p, Carries dx p ci.toNat (encode indexCounts dummy ci.toNat data) :=
  ⟨_, packet_carries hchannel haddress ci _ (encode_length_le indexCounts dummy ci.toNat h)⟩

/-- A demultiplexer for channel 1, address 0, of which nothing was delivered. -/
def fresh : Demux := ⟨1, 0, -1, -1, 0⟩

theorem idl_a_dummy_bytes_fresh :
    (∀ dummy p, Carries fresh p 1 (encode false dummy 1 [0x00, 0x41, 0xFF]) →
      Delivers (fun _ => true) fresh p [0x00, 0x41, 0xFF]) ↔ Few 1 [0x00, 0x41, 0xFF] :=
  idl_a_dummy_bytes (fun _ => true) fresh false 1 [0x00, 0x41, 0xFF]
    (@data_fits fresh 1 rfl rfl false 1 _ (by decide))

/-- Neither eight consecutive zeros, with their dummy byte, nor eight zeros apart
are delivered as they were sent. -/
theorem idl_a_dummy_bytes_differ :
    ¬ (∀ dummy p, Carries fresh p 1 (encode false dummy 1 (List.replicate 8 0x00)) →
      Delivers (fun _ => true) fresh p (List.replicate 8 0x00)) ∧
    ¬ (∀ dummy p, Carries fresh p 1 (encode false dummy 1
        (List.replicate 8 [0x00, 0x41]).flatten) →
      Delivers (fun _ => true) fresh p (List.replicate 8 [0x00, 0x41]).flatten) := by
  constructor
  · intro h
    obtain ⟨p, hp⟩ := @data_fits fresh 1 rfl rfl false 1 (List.replicate 8 0x00) (by decide) 0x55
    exact absurd (few_of_delivers rfl hp (h 0x55 p hp)) (by decide)
  · intro h
    obtain ⟨p, hp⟩ := @data_fits fresh 1 rfl rfl false 1 (List.replicate 8 [0x00, 0x41]).flatten
      (by decide) 0x55
    exact absurd (few_of_delivers rfl hp (h 0x55 p hp)) (by decide)

end IdlDummyBytes
