import Zvbi.DvbChunks
import Zvbi.DvbFrameOrder

/-!
# PES packets in a transport stream

A VBI PES packet fills whole TS packets. The TS reader collects the payload of the
packets of its stream and hands over each PES packet when it is complete, with
any packets of other streams in between. Two things disturb it. It does not look
whether a PES packet is complete when it has just found the first sync byte, and
it drops the PES packet it collects when it sees a packet with an error, whatever
the stream this belongs to.
-/

namespace DvbTransport
open DvbFrame DvbDemux DvbPesReader DvbTsReader DvbChunks WindowReader

structure PesPacket where
  bytes : List UInt8
  start : probe bytes = .packet
  length_eq : bytes.length = packetLength bytes + 6
  aligned : 184 ∣ bytes.length
  headerLength : byte bytes 8 = 36
  dataIdentifier : validDataIdentifier (byte bytes 45)
  notScrambled : byte bytes 6 &&& 0xf4 = 0x84
  timestamp : byte bytes 7 >>> 6 = 2 ∨ byte bytes 7 >>> 6 = 3

def PesPacket.payload (P : PesPacket) : List UInt8 := P.bytes.drop 46

theorem PesPacket.length_ge (P : PesPacket) : 184 ≤ P.bytes.length := by
  have haligned := P.aligned
  have hlength := P.length_eq
  omega

def stamp (d : Decoder) (P : PesPacket) : Decoder :=
  { d with packetPts := decodeTimestamp (P.bytes.drop 9) }

theorem valid_header (d : Decoder) (P : PesPacket) :
    validVbiPesPacketHeader d P.bytes = (stamp d P, true) := by
  have hok : ¬(byte P.bytes 8 ≠ 36 ∨ (!validDataIdentifier (byte P.bytes 45)) = true ∨
      byte P.bytes 6 &&& 0xf4 ≠ 0x84) := by
    rw [P.headerLength, P.dataIdentifier, P.notScrambled]
    decide
  rw [validVbiPesPacketHeader, if_neg hok, if_pos P.timestamp, stamp]

def pesTake (d : Decoder) (P : PesPacket) : Decoder := takePacket (stamp d P) P.payload

def atPacket (d : Decoder) : Config PesState UInt8 := ⟨⟨pesHeaderLookahead, d, le_rfl⟩, 0, []⟩

theorem read_packet (d : Decoder) (P : PesPacket) (rest : List UInt8) :
    read pesReader (atPacket d) (P.bytes ++ rest) = read pesReader (atPacket (pesTake d P)) rest := by
  have hlength := P.length_ge
  have heq := P.length_eq
  have hbytes : (P.bytes ++ rest).length = P.bytes.length + rest.length := List.length_append
  have hsame := sameHeader_append (show pesHeaderLookahead ≤ P.bytes.length by
    unfold pesHeaderLookahead
    omega) rest
  have hge : pesHeaderLookahead ≤ packetLength P.bytes - 40 := by
    unfold pesHeaderLookahead
    omega
  have hheader : pesAct ⟨pesHeaderLookahead, d, le_rfl⟩ (P.bytes ++ rest) =
      (⟨packetLength P.bytes - 40, stamp d P, hge⟩, 46) := by
    rw [pesAct, if_neg (by exact Nat.lt_irrefl _), hsame.probe, P.start]
    dsimp only
    rw [hsame.headerAct, headerAct, dif_neg (by omega), valid_header]
  have hdrop : (P.bytes ++ rest).drop 46 = P.payload ++ rest :=
    List.drop_append_of_le_length (by omega)
  have hpayload : P.payload.length = packetLength P.bytes - 40 := by
    rw [PesPacket.payload, List.length_drop]
    omega
  have hunits : pesAct ⟨packetLength P.bytes - 40, stamp d P, hge⟩ (P.payload ++ rest) =
      (⟨pesHeaderLookahead, pesTake d P, le_rfl⟩, packetLength P.bytes - 40) := by
    rw [pesAct, if_pos (by unfold pesHeaderLookahead; dsimp only; omega)]
    dsimp only
    rw [← hpayload, List.take_left, pesTake]
  rw [atPacket, read_act pesReader_lawful _ (by
    change pesHeaderLookahead ≤ _
    unfold pesHeaderLookahead
    omega)]
  change read pesReader ⟨(pesAct _ _).1, (pesAct _ _).2, []⟩ _ = _
  rw [hheader]
  dsimp only
  rw [read_drop _ (by omega), hdrop, read_act pesReader_lawful _ (by
    change packetLength P.bytes - 40 ≤ _
    rw [List.length_append]
    omega)]
  change read pesReader ⟨(pesAct _ _).1, (pesAct _ _).2, []⟩ _ = _
  rw [hunits]
  dsimp only
  rw [read_drop _ (by rw [List.length_append]; omega), ← hpayload, List.drop_left, atPacket]

theorem read_packets (d : Decoder) (packets : List PesPacket) :
    read pesReader (atPacket d) (packets.flatMap PesPacket.bytes) =
      atPacket (packets.foldl pesTake d) := by
  induction packets generalizing d with
  | nil => rfl
  | cons P packets ih => rw [List.flatMap_cons, read_packet, ih, List.foldl_cons]

structure TsPacket where
  bytes : List UInt8
  length_eq : bytes.length = 188
  sync : byte bytes 0 = 0x47

def TsPacket.payload (p : TsPacket) : List UInt8 := p.bytes.drop 4

theorem TsPacket.payload_length (p : TsPacket) : p.payload.length = 184 := by
  rw [TsPacket.payload, List.length_drop, p.length_eq]

/-- `transport_error_indicator`. -/
def TsPacket.error (p : TsPacket) : Bool := (byte p.bytes 1).toNat.testBit 7

structure Carrier (pid : Nat) (counter : Nat) (start : Bool) (p : TsPacket) : Prop where
  error : p.error = false
  pid : tsPid p.bytes = pid
  clear : byte p.bytes 3 &&& 0xc0 = 0
  payloadOnly : byte p.bytes 3 &&& 0x30 = 0x10
  counter : (byte p.bytes 3).toNat % 16 = counter % 16
  start : (byte p.bytes 1).toNat.testBit 6 = start

/-- The PES packet which is on its way, with the bytes still to come. -/
def remaining (P : PesPacket) (rest : List UInt8) : Option (PesPacket × List UInt8) :=
  if rest = [] then none else some (P, rest)

def finished (P : PesPacket) (rest : List UInt8) (done : List PesPacket) : List PesPacket :=
  if rest = [] then P :: done else done

/-- The TS packets carry PES packets, of which all in the list are complete. The
next counter value and the PES packet on its way are given. Errors in packets of
other streams may disturb a PES packet on its way only if the flag is set. -/
inductive Carries (pid : Nat) (disturbed : Bool) :
    Nat → Option (PesPacket × List UInt8) → List TsPacket → List PesPacket → Prop
  | nil (counter current) : Carries pid disturbed counter current [] []
  | other {p counter current stream done} (other : tsPid p.bytes ≠ pid)
      (calm : disturbed = true ∨ current = none ∨ p.error = false)
      (rest : Carries pid disturbed counter current stream done) :
      Carries pid disturbed counter current (p :: stream) done
  | first {p counter stream done} (P : PesPacket) (bytes : List UInt8)
      (carrier : Carrier pid counter true p) (payload : P.bytes = p.payload ++ bytes)
      (rest : Carries pid disturbed (counter + 1) (remaining P bytes) stream done) :
      Carries pid disturbed counter none (p :: stream) (finished P bytes done)
  | next {p counter stream done} (P : PesPacket) (bytes : List UInt8)
      (carrier : Carrier pid counter false p)
      (rest : Carries pid disturbed (counter + 1) (remaining P bytes) stream done) :
      Carries pid disturbed counter (some (P, p.payload ++ bytes)) (p :: stream)
        (finished P bytes done)

structure Boundary (dx : TsDemux) : Prop where
  skip : dx.skip = 0
  consume : dx.consume = 0
  lookahead : dx.lookahead = tsHeaderLookahead
  buffer : dx.buffer = []
  inSync : dx.inSync = true
  frameTodo : dx.frameTodo = []

variable {dx : TsDemux} {P : PesPacket} {bytes : List UInt8} {p : TsPacket} {done : List PesPacket}
  {stream : List TsPacket}

theorem Boundary.ready (h : Boundary dx) : Ready dx := by
  refine ⟨h.frameTodo, ?_, ?_⟩
  · rw [h.lookahead]
    decide
  · rw [h.buffer, h.lookahead, h.inSync]
    rfl

/-- A context is its own reader with an empty buffer. -/
theorem Boundary.buffer_eq (h : Boundary dx) :
    { dx with
      skip := 0
      consume := 0
      buffer := []
      lookahead := tsHeaderLookahead } = dx := by
  obtain ⟨hskip, hconsume, hlookahead, hbuffer, -, -⟩ := h
  cases dx
  subst hskip hconsume hlookahead hbuffer
  rfl

theorem tsBytes_header (h : Boundary dx) (p : TsPacket) :
    tsBytes dx p.bytes =
      tsBytes (tsHeader { dx with buffer := p.bytes.take 10 } (p.bytes.take 10))
        (p.bytes.drop 10) := by
  have hlength : (p.bytes.take 10).length = dx.lookahead := by
    rw [List.length_take, p.length_eq, h.lookahead]
    rfl
  have hsync : byte (p.bytes.take 10) 0 = 0x47 := by
    rw [byte_take (by decide)]
    exact p.sync
  have hread := tsBytes_lookahead h.consume h.skip h.ready.lookahead_pos hlength
  rw [h.buffer, List.nil_append, tsLookahead, if_pos h.inSync, if_neg (not_not.mpr hsync)] at hread
  rw [← hread, ← tsBytes_append, List.take_append_drop]

/-- The PES buffer and what is missing, after a payload of 184 bytes. -/
def collect (dx : TsDemux) (payload : List UInt8) : TsDemux :=
  { dx with
    pes := dx.pes ++ payload
    pesTodo := dx.pesTodo - payload.length }

def handOver (dx : TsDemux) : TsDemux :=
  if dx.pesTodo = 0 then tsExtract (pesComplete dx) else dx

theorem handOver_stream (dx : TsDemux) : SameStream dx (handOver dx) := by
  rw [handOver]
  split
  · refine SameStream.trans ?_ (tsExtract_stream _)
    rw [pesComplete]
    split <;> exact ⟨rfl, rfl, rfl, rfl, rfl, rfl, rfl, rfl, rfl⟩
  · exact ⟨rfl, rfl, rfl, rfl, rfl, rfl, rfl, rfl, rfl⟩

theorem Boundary.handOver (h : Boundary dx) : Boundary (handOver dx) := by
  have hstream := handOver_stream dx
  refine ⟨hstream.skip.trans h.skip, hstream.consume.trans h.consume,
    hstream.lookahead.trans h.lookahead, hstream.buffer.trans h.buffer,
    hstream.inSync.trans h.inSync, ?_⟩
  rw [DvbTransport.handOver]
  split
  · exact tsExtract_frameTodo _
  · exact h.frameTodo

/-- All of the payload is copied, the first six bytes of it from the buffer. -/
theorem tsBytes_copied (h : Boundary dx) (htodo : 184 ≤ dx.pesTodo) (buffer : List UInt8)
    (p : TsPacket) :
    tsBytes (copyFragment { dx with buffer := buffer } (p.bytes.take 10)) (p.bytes.drop 10) =
      handOver (collect dx p.payload) := by
  have hlength := p.length_eq
  have htake : (p.bytes.take 10).length = 10 := by
    rw [List.length_take, hlength]
    rfl
  have hdrop : (p.bytes.drop 10).length = 178 := by
    rw [List.length_drop, hlength]
  have hsplit : ((p.bytes.take 10).drop 4).take 6 ++ p.bytes.drop 10 = p.payload := by
    have hfull : ((p.bytes.take 10).drop 4).length ≤ 6 := by
      rw [List.length_drop, htake]
    rw [List.take_of_length_le hfull, TsPacket.payload, List.drop_take]
    have hsum : p.bytes.drop 10 = (p.bytes.drop 4).drop 6 := by rw [List.drop_drop]
    rw [hsum, List.take_append_drop]
  have hcopied : copyFragment { dx with buffer := buffer } (p.bytes.take 10) = { dx with
      pes := dx.pes ++ ((p.bytes.take 10).drop 4).take 6
      pesTodo := dx.pesTodo - 6
      consume := 178
      buffer := []
      lookahead := tsHeaderLookahead } := by
    rw [copyFragment, htake, if_pos (by decide)]
    dsimp only
    rw [Nat.min_eq_right htodo]
    rfl
  rw [hcopied, tsBytes_consume hdrop (by exact Nat.succ_pos 177), consumeAll]
  have hconsumed : consumePayload { dx with
      pes := dx.pes ++ ((p.bytes.take 10).drop 4).take 6
      pesTodo := dx.pesTodo - 6
      consume := 178
      buffer := []
      lookahead := tsHeaderLookahead } (p.bytes.drop 10) = collect dx p.payload := by
    obtain ⟨hskip, hconsume, hlookahead, hbuffer, -, -⟩ := h
    rw [consumePayload, collect, p.payload_length, hdrop]
    dsimp only
    rw [List.append_assoc, hsplit, Nat.sub_sub]
    cases dx
    subst hskip hconsume hlookahead hbuffer
    rfl
  dsimp only
  rw [hconsumed, handOver]
  by_cases hdone : (collect dx p.payload).pesTodo = 0
  · rw [if_pos ⟨Nat.succ_pos 177, hdone⟩, if_pos hdone]
  · rw [if_neg fun hand => hdone hand.2, if_neg hdone, tsExtract_nothing (by exact h.frameTodo)]

theorem tsBytes_skipped (h : Boundary dx) (p : TsPacket) :
    tsBytes (skipTsPacket { dx with buffer := p.bytes.take 10 } (p.bytes.take 10))
      (p.bytes.drop 10) = dx := by
  have htake : (p.bytes.take 10).length = 10 := by
    rw [List.length_take, p.length_eq]
    rfl
  have hdrop : (p.bytes.drop 10).length = 178 := by
    rw [List.length_drop, p.length_eq]
  rw [skipTsPacket, htake, if_pos (by decide), tsBytes_skip (by exact h.consume) (by exact hdrop.le)]
  dsimp only
  rw [hdrop]
  exact h.buffer_eq ▸ rfl

/-- The TS reader takes a PES packet. Unlike the PES reader it discards the frame
after any error. -/
def tsTake (d : Decoder) (P : PesPacket) : Decoder :=
  let r := demuxPesPacketFrame (some always) (newPacket (stamp d P)) P.payload
  if Err.code r.err ≠ 0 then discardFrame r.dx else r.dx

theorem tsTake_handed (d : Decoder) (P : PesPacket) :
    (tsTake d P).handed = d.handed ++ [P.payload] := by
  have hhanded := demuxPesPacketFrame_handed (some always) (newPacket (stamp d P)) P.payload
  rw [tsTake]
  split
  · exact hhanded
  · exact hhanded

theorem handOver_complete (hpes : dx.pes = P.bytes) (htodo : dx.pesTodo = 0) :
    (handOver dx).decoder = tsTake dx.decoder P := by
  have hlength := P.length_ge
  have hpayload : P.bytes.drop 46 ≠ [] := by
    apply List.ne_nil_of_length_pos
    rw [List.length_drop]
    omega
  rw [handOver, if_pos htodo, pesComplete, hpes, valid_header, tsExtract, extractTodo, tsTake]
  dsimp only
  rw [if_neg hpayload, if_neg (demuxPesPacketFrame_always _ _), PesPacket.payload]
  split <;> rfl

variable {i : Nat} {q : List UInt8} {current : Option (PesPacket × List UInt8)} {disturbed : Bool}

theorem take_byte (p : TsPacket) (h : i < 10) :
    byte (p.bytes.take 10) i = byte p.bytes i := byte_take h

theorem payload_byte (h : P.bytes = p.payload ++ bytes) (q : List UInt8)
    (hq : byte q (4 + i) = byte p.bytes (4 + i)) (hi : i < 184) :
    byte q (4 + i) = byte P.bytes i := by
  rw [hq, h, byte_append (by rw [p.payload_length]; exact hi), TsPacket.payload, byte_drop]

theorem probe_packet {p : List UInt8} (h : probe p = .packet) :
    byte p 0 ||| byte p 1 = 0 ∧ byte p 2 = 1 ∧ byte p 3 = 0xbd := by
  rw [probe] at h
  split at h
  · cases h
  · split at h
    · cases h
    · rename_i hinit
      split at h
      · rename_i hid
        rw [not_or, not_not, not_not] at hinit
        exact ⟨hinit.1, hinit.2, hid⟩
      · split at h <;> cases h

theorem pesStart_payload (h : P.bytes = p.payload ++ bytes)
    (hq : ∀ i < 10, byte q i = byte p.bytes i) :
    pesStart q = true ∧ packetLength (q.drop 4) = packetLength P.bytes := by
  have hbyte : ∀ i < 6, byte q (4 + i) = byte P.bytes i := by
    intro i hi
    exact payload_byte h q (hq (4 + i) (by omega)) (by omega)
  obtain ⟨hzero, hone, hid⟩ := probe_packet P.start
  constructor
  · rw [pesStart, hbyte 0 (by decide), hbyte 1 (by decide), hbyte 2 (by decide),
      hbyte 3 (by decide), hzero, hone, hid]
    rfl
  · rw [packetLength, packetLength, byte_drop, byte_drop, hbyte 4 (by decide),
      hbyte 5 (by decide)]

theorem tsHeader_carrier {dx : TsDemux} {counter : Nat} {start : Bool} {p : TsPacket}
    (h : Carrier dx.pid counter start p)
    (hcounter : 0 ≤ dx.continuity → dx.continuity % 16 = (counter : Int) % 16) {q : List UInt8}
    (hq : ∀ i < 10, byte q i = byte p.bytes i) : tsHeader dx q = tsPayload (dx.count q) q := by
  have herror : (byte q 1).toNat.testBit 7 = false := by
    rw [hq 1 (by decide)]
    exact h.error
  have hpid : tsPid q = dx.pid := by
    rw [tsPid, hq 1 (by decide), hq 2 (by decide)]
    exact h.pid
  have hturn : ¬(0 ≤ dx.continuity ∧ dx.continuity % 16 ≠ ((byte q 3).toNat : Int) % 16) := by
    rintro ⟨hknown, hne⟩
    rw [hq 3 (by decide), hcounter hknown] at hne
    have hsame := h.counter
    omega
  rw [tsHeader, herror, if_neg (by decide), if_neg (not_not.mpr hpid), hq 3 (by decide), h.clear,
    if_neg (by decide), if_pos h.payloadOnly, tsContinuity, if_neg hturn]

structure Follows (pid counter : Nat) (current : Option (PesPacket × List UInt8))
    (dx : TsDemux) : Prop where
  boundary : Boundary dx
  pid : dx.pid = pid
  continuity : 0 ≤ dx.continuity → dx.continuity % 16 = (counter : Int) % 16
  idle : current = none → dx.pesTodo = 0
  busy : ∀ P rest, current = some (P, rest) → P.bytes = dx.pes ++ rest ∧
    dx.pesTodo = rest.length ∧ rest ≠ []

variable {pid counter : Nat}

def dropPacket (dx : TsDemux) : TsDemux :=
  { dx with
    decoder := discardFrame dx.decoder
    pesTodo := 0
    consume := 0 }

theorem tsBytes_other (h : Boundary dx) (hpid : tsPid p.bytes ≠ dx.pid) :
    tsBytes dx p.bytes = if p.error then dropPacket dx else dx := by
  have hpid' : tsPid (p.bytes.take 10) ≠ dx.pid := by
    rw [tsPid, take_byte p (by decide), take_byte p (by decide)]
    exact hpid
  rw [tsBytes_header h, tsHeader, take_byte p (by decide)]
  by_cases herror : (byte p.bytes 1).toNat.testBit 7 = true
  · have hdropped : Boundary (dropPacket dx) :=
      ⟨h.skip, rfl, h.lookahead, h.buffer, h.inSync, h.frameTodo⟩
    rw [if_pos herror, TsPacket.error, if_pos herror]
    exact tsBytes_skipped hdropped p
  · rw [if_neg herror, if_pos hpid', TsPacket.error, if_neg herror]
    exact tsBytes_skipped h p

/-- The payload of a packet in turn extends the PES packet. -/
theorem follows_collect {t : TsDemux} (hboundary : Boundary t) (hpid : t.pid = pid)
    (hcontinuity : t.continuity % 16 = ((counter + 1 : Nat) : Int) % 16)
    (hbytes : P.bytes = t.pes ++ (p.payload ++ bytes))
    (htodo : t.pesTodo = (p.payload ++ bytes).length) :
    Follows pid (counter + 1) (remaining P bytes) (handOver (collect t p.payload)) ∧
    (handOver (collect t p.payload)).decoder =
      if bytes = [] then tsTake t.decoder P else t.decoder := by
  have hstream := handOver_stream (collect t p.payload)
  have hcollected : Boundary (collect t p.payload) := ⟨hboundary.skip, hboundary.consume,
    hboundary.lookahead, hboundary.buffer, hboundary.inSync, hboundary.frameTodo⟩
  have htodo' : (collect t p.payload).pesTodo = bytes.length := by
    change t.pesTodo - p.payload.length = bytes.length
    rw [htodo, List.length_append]
    omega
  have hpes : P.bytes = (collect t p.payload).pes ++ bytes := by
    change P.bytes = t.pes ++ p.payload ++ bytes
    rw [hbytes, List.append_assoc]
  constructor
  · refine ⟨hcollected.handOver, hstream.pid.trans hpid, ?_, ?_, ?_⟩
    · intro _
      rw [hstream.continuity]
      exact hcontinuity
    · rw [remaining, hstream.pesTodo, htodo']
      split
      · rename_i hempty
        intro _
        rw [hempty, List.length_nil]
      · rintro ⟨⟩
    · intro Q rest
      rw [remaining, hstream.pesTodo, hstream.pes, htodo']
      split
      · rintro ⟨⟩
      · rename_i hrest
        rintro ⟨⟩
        exact ⟨hpes, rfl, hrest⟩
  · split
    · rename_i hempty
      rw [hempty, List.append_nil] at hpes
      rw [hempty, List.length_nil] at htodo'
      exact handOver_complete hpes.symm htodo'
    · rename_i hrest
      rw [handOver, if_neg (by rw [htodo']; exact fun hzero => hrest (List.eq_nil_of_length_eq_zero hzero))]
      rfl

theorem count_continuity (dx : TsDemux) {start : Bool} (h : Carrier pid counter start p)
    (hq : byte q 3 = byte p.bytes 3) :
    (dx.count q).continuity % 16 = ((counter + 1 : Nat) : Int) % 16 := by
  have hcounter := h.counter
  rw [TsDemux.count, hq]
  dsimp only
  omega

theorem follows_first (h : Follows pid counter none dx) (hcarrier : Carrier pid counter true p)
    (hbytes : P.bytes = p.payload ++ bytes) :
    Follows pid (counter + 1) (remaining P bytes) (tsBytes dx p.bytes) ∧
    (tsBytes dx p.bytes).decoder = if bytes = [] then tsTake dx.decoder P else dx.decoder := by
  have hboundary := h.boundary
  have hge := P.length_ge
  have hlength := P.length_eq
  obtain ⟨hstart, hsize⟩ := pesStart_payload hbytes fun i hi => take_byte p hi
  obtain rfl := h.pid
  have htodo : (p.payload ++ bytes).length = packetLength P.bytes + 6 := by
    rw [← hbytes, hlength]
  have hbegun : Boundary ((dx.count (p.bytes.take 10)).startPes (packetLength P.bytes + 6)) :=
    ⟨hboundary.skip, hboundary.consume, hboundary.lookahead, hboundary.buffer, hboundary.inSync,
      hboundary.frameTodo⟩
  have hheader := @tsHeader_carrier { dx with buffer := p.bytes.take 10 } counter true p hcarrier
    h.continuity _ fun i hi => take_byte p hi
  have hpayload : tsPayload (TsDemux.count { dx with buffer := p.bytes.take 10 }
      (p.bytes.take 10)) (p.bytes.take 10) =
      copyFragment { (dx.count (p.bytes.take 10)).startPes (packetLength P.bytes + 6) with
        buffer := p.bytes.take 10 } (p.bytes.take 10) := by
    rw [tsPayload, if_pos (by exact h.idle rfl), hstart, hsize, if_neg (by decide),
      if_neg (by omega)]
    rfl
  rw [tsBytes_header hboundary, hheader, hpayload,
    tsBytes_copied hbegun (by
      change 184 ≤ packetLength P.bytes + 6
      omega)]
  exact follows_collect hbegun rfl (count_continuity dx hcarrier (take_byte p (by decide)))
    (hbytes.trans (List.nil_append _).symm) htodo.symm

theorem follows_next (h : Follows pid counter (some (P, p.payload ++ bytes)) dx)
    (hcarrier : Carrier pid counter false p) :
    Follows pid (counter + 1) (remaining P bytes) (tsBytes dx p.bytes) ∧
    (tsBytes dx p.bytes).decoder = if bytes = [] then tsTake dx.decoder P else dx.decoder := by
  have hboundary := h.boundary
  obtain ⟨hbytes, htodo, -⟩ := h.busy P _ rfl
  obtain rfl := h.pid
  have hge : 184 ≤ dx.pesTodo := by
    rw [htodo, List.length_append, p.payload_length]
    omega
  have hstart : (byte (p.bytes.take 10) 1).toNat.testBit 6 = false := by
    rw [take_byte p (by decide)]
    exact hcarrier.start
  have hcounted : Boundary (dx.count (p.bytes.take 10)) :=
    ⟨hboundary.skip, hboundary.consume, hboundary.lookahead, hboundary.buffer, hboundary.inSync,
      hboundary.frameTodo⟩
  have hheader := @tsHeader_carrier { dx with buffer := p.bytes.take 10 } counter false p hcarrier
    h.continuity _ fun i hi => take_byte p hi
  have hpayload : tsPayload (TsDemux.count { dx with buffer := p.bytes.take 10 }
      (p.bytes.take 10)) (p.bytes.take 10) =
      copyFragment { dx.count (p.bytes.take 10) with buffer := p.bytes.take 10 }
        (p.bytes.take 10) := by
    have hbusy : dx.pesTodo ≠ 0 := by omega
    rw [tsPayload, if_neg (by exact hbusy), hstart, if_neg (by decide)]
    rfl
  rw [tsBytes_header hboundary, hheader, hpayload, tsBytes_copied hcounted (by exact hge)]
  exact follows_collect hcounted rfl (count_continuity dx hcarrier (take_byte p (by decide)))
    hbytes htodo

/-- With no errors in the stream the decoder takes each complete PES packet. -/
theorem carries_decoder (h : Carries pid disturbed counter current stream done)
    (hclean : ∀ p ∈ stream, p.error = false) (hdx : Follows pid counter current dx) :
    (tsBytes dx (stream.flatMap TsPacket.bytes)).decoder = done.foldl tsTake dx.decoder := by
  have hfinished : ∀ (d : Decoder) (P : PesPacket) (bytes : List UInt8) (done : List PesPacket),
      done.foldl tsTake (if bytes = [] then tsTake d P else d) =
        (finished P bytes done).foldl tsTake d := by
    intro d P bytes done
    rw [finished]
    split <;> rfl
  induction h generalizing dx with
  | nil => rfl
  | other other calm rest ih =>
    have hrest := fun q hq => hclean q (List.mem_cons_of_mem _ hq)
    have hbyte := tsBytes_other hdx.boundary (hdx.pid ▸ other)
    rw [hclean _ List.mem_cons_self, if_neg (by decide)] at hbyte
    rw [List.flatMap_cons, tsBytes_append, hbyte, ih hrest hdx]
  | first P bytes carrier payload rest ih =>
    have hrest := fun q hq => hclean q (List.mem_cons_of_mem _ hq)
    obtain ⟨hnext, hdecoder⟩ := follows_first hdx carrier payload
    rw [List.flatMap_cons, tsBytes_append, ih hrest hnext, hdecoder, hfinished]
  | next P bytes carrier rest ih =>
    have hrest := fun q hq => hclean q (List.mem_cons_of_mem _ hq)
    obtain ⟨hnext, hdecoder⟩ := follows_next hdx carrier
    rw [List.flatMap_cons, tsBytes_append, ih hrest hnext, hdecoder, hfinished]

/-- The payloads handed over are those of the complete PES packets, in order. -/
theorem carries_handed (h : Carries pid false counter current stream done)
    (hdx : Follows pid counter current dx) :
    (tsBytes dx (stream.flatMap TsPacket.bytes)).decoder.handed =
      dx.decoder.handed ++ done.map PesPacket.payload := by
  have hfinished : ∀ (d : Decoder) (P : PesPacket) (bytes : List UInt8) (done : List PesPacket),
      (if bytes = [] then tsTake d P else d).handed ++ done.map PesPacket.payload =
        d.handed ++ (finished P bytes done).map PesPacket.payload := by
    intro d P bytes done
    rw [finished]
    split
    · rw [tsTake_handed, List.append_assoc, List.map_cons, List.singleton_append]
    · rfl
  induction h generalizing dx with
  | nil => rw [List.flatMap_nil, tsBytes_nil, List.map_nil, List.append_nil]
  | @other p counter current stream done other calm rest ih =>
    have hbyte := tsBytes_other hdx.boundary (hdx.pid ▸ other)
    rw [List.flatMap_cons, tsBytes_append, hbyte]
    split
    · rename_i herror
      obtain rfl : current = none := by
        rcases calm with hdisturbed | hidle | hclean
        · cases hdisturbed
        · exact hidle
        · rw [herror] at hclean
          cases hclean
      apply ih
      refine ⟨⟨hdx.boundary.skip, rfl, hdx.boundary.lookahead, hdx.boundary.buffer,
        hdx.boundary.inSync, hdx.boundary.frameTodo⟩, hdx.pid, hdx.continuity, fun _ => rfl, ?_⟩
      rintro P rest ⟨⟩
    · exact ih hdx
  | first P bytes carrier payload rest ih =>
    obtain ⟨hnext, hdecoder⟩ := follows_first hdx carrier payload
    rw [List.flatMap_cons, tsBytes_append, ih hnext, hdecoder, hfinished]
  | next P bytes carrier rest ih =>
    obtain ⟨hnext, hdecoder⟩ := follows_next hdx carrier
    rw [List.flatMap_cons, tsBytes_append, ih hnext, hdecoder, hfinished]

/-- The context in sync, before any packet. -/
def synced (pid : Nat) : TsDemux :=
  { tsDemuxNew pid with
    inSync := true
    lookahead := tsHeaderLookahead }

theorem boundary_synced (pid : Nat) : Boundary (synced pid) := ⟨rfl, rfl, rfl, rfl, rfl, rfl⟩

theorem follows_synced (pid counter : Nat) : Follows pid counter none (synced pid) := by
  refine ⟨boundary_synced pid, rfl, ?_, fun _ => rfl, ?_⟩
  · intro h
    exact absurd h (by decide : ¬ 0 ≤ (-1 : Int))
  · rintro P rest ⟨⟩

def searched (p q : TsPacket) : List UInt8 := p.bytes ++ q.bytes.take 9

theorem searched_length (p q : TsPacket) : (searched p q).length = 197 := by
  rw [searched, List.length_append, List.length_take, p.length_eq, q.length_eq]
  rfl

theorem searched_byte (p q : TsPacket) (h : i < 188) :
    byte (searched p q) i = byte p.bytes i := byte_append (by rw [p.length_eq]; exact h) _

theorem searched_drop (p q : TsPacket) : (searched p q).drop 188 = q.bytes.take 9 := by
  rw [searched, ← p.length_eq, List.drop_left]

def found (pid : Nat) (bytes : List UInt8) : TsDemux :=
  { tsDemuxNew pid with
    buffer := bytes
    inSync := true }

theorem tsBytes_searched (pid : Nat) (p q : TsPacket) :
    tsBytes (tsDemuxNew pid) (searched p q) =
      tsHeader (found pid (searched p q)) (searched p q) := by
  have hsync : syncAt (searched p q) = true := by
    have hnext : byte (searched p q) 188 = 0x47 := by
      have hdrop := byte_drop (searched p q) 188 0
      rw [searched_drop, byte_take (by decide), q.sync] at hdrop
      exact hdrop.symm
    rw [syncAt, searched_byte p q (by decide), p.sync, searched_length, hnext]
    rfl
  rw [tsBytes_lookahead rfl rfl (Nat.succ_pos 196) (searched_length p q), tsLookahead,
    if_neg (by exact Bool.false_ne_true)]
  dsimp only
  rw [show (tsDemuxNew pid).buffer ++ searched p q = searched p q from rfl, syncSearch,
    if_pos hsync]
  rfl

theorem tsBytes_nine (h : Boundary dx) (q : TsPacket) :
    tsBytes dx (q.bytes.take 9) = { dx with
      buffer := q.bytes.take 9
      lookahead := 1 } := by
  have hlength : (q.bytes.take 9).length = 9 := by
    rw [List.length_take, q.length_eq]
    rfl
  have hlookahead : dx.lookahead = 10 := h.lookahead
  rw [tsBytes_buffer h.consume h.skip (by omega), h.buffer, List.nil_append, hlength, hlookahead]

/-- The search read into the next packet, from where the reader goes on. -/
theorem tsBytes_resync (h : Boundary dx) {q : TsPacket}
    (hnine : tsBytes (tsDemuxNew pid) (searched p q) = { dx with
      buffer := q.bytes.take 9
      lookahead := 1 }) (rest : List UInt8) :
    tsBytes (tsDemuxNew pid) (p.bytes ++ (q.bytes ++ rest)) = tsBytes dx (q.bytes ++ rest) := by
  have hsplit : q.bytes ++ rest = q.bytes.take 9 ++ (q.bytes.drop 9 ++ rest) := by
    rw [← List.append_assoc, List.take_append_drop]
  rw [hsplit, ← List.append_assoc, tsBytes_append, ← searched, hnine, tsBytes_append dx,
    tsBytes_nine h]

theorem resync_other (hpid : tsPid p.bytes ≠ pid) (q : TsPacket) (rest : List UInt8) :
    tsBytes (tsDemuxNew pid) (p.bytes ++ (q.bytes ++ rest)) =
      tsBytes (synced pid) (q.bytes ++ rest) := by
  apply tsBytes_resync (boundary_synced pid)
  have hpid' : tsPid (searched p q) ≠ pid := by
    rw [tsPid, searched_byte p q (by decide), searched_byte p q (by decide)]
    exact hpid
  have hskip : ∀ dx : TsDemux, skipTsPacket dx (searched p q) = { dx with
      buffer := q.bytes.take 9
      lookahead := 1 } := by
    intro dx
    rw [skipTsPacket, searched_length, if_neg (by decide), searched_drop]
    rfl
  rw [tsBytes_searched, tsHeader]
  split
  · rw [skipTsPesPacket, hskip]
    rfl
  · rw [if_pos (by exact hpid'), hskip]
    rfl

def firstPes (pid : Nat) (p : TsPacket) (size : Nat) : TsDemux :=
  collect (((synced pid).count p.bytes).startPes size) p.payload

theorem boundary_firstPes (pid : Nat) (p : TsPacket) (size : Nat) :
    Boundary (firstPes pid p size) := ⟨rfl, rfl, rfl, rfl, rfl, rfl⟩

theorem resync_first (hcarrier : Carrier pid counter true p) (hbytes : P.bytes = p.payload ++ bytes)
    (q : TsPacket) (rest : List UInt8) : tsBytes (tsDemuxNew pid) (p.bytes ++ (q.bytes ++ rest)) =
      tsBytes (firstPes pid p (packetLength P.bytes + 6)) (q.bytes ++ rest) := by
  apply tsBytes_resync (boundary_firstPes pid p _)
  have hge := P.length_ge
  have hlength := P.length_eq
  have hsame : ∀ i < 10, byte (searched p q) i = byte p.bytes i := by
    intro i hi
    exact searched_byte p q (by omega)
  obtain ⟨hstart, hsize⟩ := pesStart_payload hbytes hsame
  have hcount : ∀ dx : TsDemux, dx.count (searched p q) = dx.count p.bytes := by
    intro dx
    rw [TsDemux.count, TsDemux.count, hsame 3 (by decide)]
  have hpayload : ((searched p q).drop 4).take 184 = p.payload := by
    rw [searched, List.drop_append_of_le_length (by rw [p.length_eq]; decide),
      List.take_append_of_le_length (by rw [List.length_drop, p.length_eq]), TsPacket.payload,
      List.take_of_length_le (by rw [List.length_drop, p.length_eq])]
  rw [tsBytes_searched, @tsHeader_carrier (found pid (searched p q)) counter true p hcarrier
    (fun h => absurd h (by decide : ¬ 0 ≤ (-1 : Int))) _ hsame, tsPayload, if_pos (by rfl), hstart,
    hsize, if_neg (by decide), if_neg (by omega), copyFragment, searched_length,
    if_neg (by decide), searched_drop, hcount]
  have hmin : min (packetLength P.bytes + 6) 184 = 184 := by omega
  dsimp only [TsDemux.startPes, firstPes, collect, TsDemux.count, found]
  rw [hmin, hpayload, p.payload_length]
  rfl

/-- One TS packet is not enough to find the sync byte. -/
theorem tsBytes_single (pid : Nat) (p : TsPacket) :
    (tsBytes (tsDemuxNew pid) p.bytes).decoder = resetDecoder := by
  rw [tsBytes_buffer rfl rfl (by rw [p.length_eq]; exact (by decide : 188 < 197))]
  rfl

theorem follows_firstPes (hcarrier : Carrier pid counter true p)
    (hbytes : P.bytes = p.payload ++ bytes) (hrest : bytes ≠ []) :
    Follows pid (counter + 1) (some (P, bytes)) (firstPes pid p (packetLength P.bytes + 6)) := by
  refine ⟨boundary_firstPes pid p _, rfl, ?_, by rintro ⟨⟩, ?_⟩
  · intro _
    exact count_continuity (synced pid) hcarrier rfl
  · rintro Q rest ⟨⟩
    refine ⟨hbytes, ?_, hrest⟩
    have hlength := P.length_eq
    rw [hbytes, List.length_append] at hlength
    change packetLength P.bytes + 6 - p.payload.length = bytes.length
    rw [hbytes]
    omega

/-- The first TS packet does not hold a whole PES packet. -/
def FirstIncomplete (pid : Nat) (stream : List TsPacket) : Prop :=
  ∀ p ∈ stream.head?, tsPid p.bytes = pid → packetLength p.payload ≠ 178

theorem resync (h : Carries pid disturbed counter none stream done)
    (hfirst : FirstIncomplete pid stream) :
    (done = [] ∧ (tsBytes (tsDemuxNew pid) (stream.flatMap TsPacket.bytes)).decoder =
      resetDecoder) ∨
    ∃ dx counter current rest, Follows pid counter current dx ∧ dx.decoder = resetDecoder ∧
      (∀ p ∈ rest, p ∈ stream) ∧ Carries pid disturbed counter current rest done ∧
      tsBytes (tsDemuxNew pid) (stream.flatMap TsPacket.bytes) =
        tsBytes dx (rest.flatMap TsPacket.bytes) := by
  cases h with
  | nil => exact Or.inl ⟨rfl, rfl⟩
  | @other p _ _ stream _ other calm rest =>
    match stream, rest with
    | [], .nil _ _ =>
      rw [List.flatMap_cons, List.flatMap_nil, List.append_nil, tsBytes_single]
      exact Or.inl ⟨rfl, rfl⟩
    | q :: stream, rest =>
      refine Or.inr ⟨_, _, _, _, follows_synced pid counter, rfl, ?_, rest, ?_⟩
      · exact fun _ => List.mem_cons_of_mem p
      · rw [List.flatMap_cons, List.flatMap_cons, resync_other other]
  | @first p _ stream done P bytes carrier payload rest =>
    have hbytes : bytes ≠ [] := by
      rintro rfl
      apply hfirst p rfl carrier.pid
      have hlength := P.length_eq
      rw [payload, List.append_nil, p.payload_length] at hlength
      omega
    rw [remaining, if_neg hbytes] at rest
    rw [finished, if_neg hbytes]
    match stream, rest with
    | [], .nil _ _ =>
      rw [List.flatMap_cons, List.flatMap_nil, List.append_nil, tsBytes_single]
      exact Or.inl ⟨rfl, rfl⟩
    | q :: stream, rest =>
      refine Or.inr ⟨_, _, _, _, follows_firstPes carrier payload hbytes, rfl, ?_, rest, ?_⟩
      · exact fun _ => List.mem_cons_of_mem p
      · rw [List.flatMap_cons, List.flatMap_cons, resync_first carrier payload]

def captionPes : PesPacket where
  bytes := DvbFrameOrder.unitPacket 0xc5 3 0xf5
  start := by rfl
  length_eq := by decide +kernel
  aligned := by decide +kernel
  headerLength := by decide +kernel
  dataIdentifier := by decide +kernel
  notScrambled := by decide +kernel
  timestamp := by decide +kernel

def smallPes (counter : UInt8) (P : PesPacket) (h : P.bytes.length = 184) : TsPacket where
  bytes := [0x47, 0x41, 0x00, 0x10 ||| counter] ++ P.bytes
  length_eq := by rw [List.length_append, h]; rfl
  sync := rfl

def nullPacket : TsPacket where
  bytes := [0x47, 0x1f, 0xff, 0x10] ++ List.replicate 184 0xff
  length_eq := by decide +kernel
  sync := rfl

theorem captionPes_length : captionPes.bytes.length = 184 := by
  decide +kernel

def captionTs : TsPacket := smallPes 0 captionPes captionPes_length

theorem carries_small {counter : Nat} {c : UInt8} (hlength : P.bytes.length = 184)
    (hcarrier : Carrier 256 counter true (smallPes c P hlength))
    (h : Carries 256 disturbed (counter + 1) none stream done) :
    Carries 256 disturbed counter none (smallPes c P hlength :: stream) (P :: done) :=
  .first P [] hcarrier (List.append_nil _).symm h

theorem carrier_caption : Carrier 256 0 true captionTs := by
  constructor <;> decide +kernel

end DvbTransport
