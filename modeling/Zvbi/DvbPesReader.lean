import Zvbi.DvbDemux
import Zvbi.WindowReader

/-!
# What the PES reader reads

With a callback function which always succeeds the PES reader looks at 48 bytes
for a packet header, or at the payload of a packet. It is the same whether a
window is found in the source, or has been put together in the buffer, and the
start code scan may go on for as many bytes as there are.
-/

namespace DvbPesReader
open DvbFrame DvbDemux WindowReader

def always : Callback := fun _ => true

structure PesState where
  lookahead : Nat
  decoder : Decoder
  lookahead_ge : pesHeaderLookahead ≤ lookahead

def takePacket (d : Decoder) (payload : List UInt8) : Decoder :=
  let r := demuxPesPacketFrame (some always) (newPacket d) payload
  if Err.code r.err < 0 then discardFrame r.dx else r.dx

variable {n : Nat} {p q : List UInt8}

/-- Skip a packet without a header which is good for VBI data, or wait for the
payload. -/
theorem pesHeaderLookahead_le (h : ¬ n < 178) : pesHeaderLookahead ≤ n - 40 := by
  unfold pesHeaderLookahead
  omega

def headerAct (s : PesState) (p : List UInt8) : PesState × Nat :=
  if h : packetLength p < 178 then
    (s, 6 + packetLength p)
  else
    match validVbiPesPacketHeader s.decoder p with
    | (d, false) => ({ s with decoder := d }, 6 + packetLength p)
    | (d, true) =>
      (⟨packetLength p - 40, d, pesHeaderLookahead_le h⟩, 46)

def pesAct (s : PesState) (p : List UInt8) : PesState × Nat :=
  if pesHeaderLookahead < s.lookahead then
    (⟨pesHeaderLookahead, takePacket s.decoder (p.take s.lookahead), le_rfl⟩, s.lookahead)
  else
    match probe p with
    | .advance n => (s, n)
    | .foreign => (s, 6 + packetLength p)
    | .packet => headerAct s p

def pesReader : Reader PesState UInt8 := ⟨PesState.lookahead, pesAct⟩

def SameHeader (p q : List UInt8) : Prop := ∀ i < pesHeaderLookahead, byte p i = byte q i

variable {i : Nat} {src : List UInt8} {w : Wrap}

theorem byte_take (h : i < n) : byte (p.take n) i = byte p i := by
  simp only [byte, List.getD_eq_getElem?_getD, List.getElem?_take_of_lt h]

theorem byte_drop (p : List UInt8) (n i : Nat) : byte (p.drop n) i = byte p (n + i) := by
  simp only [byte, List.getD_eq_getElem?_getD, List.getElem?_drop]

theorem byte_append (h : i < p.length) (q : List UInt8) : byte (p ++ q) i = byte p i := by
  simp only [byte, List.getD_eq_getElem?_getD, List.getElem?_append_left h]

theorem sameHeader_take (p : List UInt8) (h : pesHeaderLookahead ≤ n) :
    SameHeader p (p.take n) := by
  intro i hi
  rw [byte_take (by omega)]

theorem sameHeader_append (h : pesHeaderLookahead ≤ p.length) (q : List UInt8) :
    SameHeader (p ++ q) p := by
  intro i hi
  exact byte_append (by omega) q

theorem SameHeader.byte (h : SameHeader p q) (i : Nat) (hi : i < 48 := by omega) :
    DvbDemux.byte p i = DvbDemux.byte q i := h i hi

theorem SameHeader.probe (h : SameHeader p q) : probe p = probe q := by
  simp only [DvbDemux.probe, h.byte 0, h.byte 1, h.byte 2, h.byte 3]

theorem SameHeader.packetLength (h : SameHeader p q) : packetLength p = packetLength q := by
  simp only [DvbDemux.packetLength, h.byte 4, h.byte 5]

theorem SameHeader.valid (h : SameHeader p q) (d : Decoder) :
    validVbiPesPacketHeader d p = validVbiPesPacketHeader d q := by
  simp only [validVbiPesPacketHeader, decodeTimestamp, byte_drop, h.byte 6, h.byte 7, h.byte 8,
    h.byte 45, h.byte 9, h.byte 10, h.byte 11, h.byte 12, h.byte 13]

theorem SameHeader.headerAct (h : SameHeader p q) (s : PesState) :
    headerAct s p = headerAct s q := by
  simp only [DvbPesReader.headerAct, h.packetLength, h.valid]

theorem probe_advance (h : probe p = .advance n) : 0 < n ∧ n ≤ 3 := by
  rw [probe] at h
  split at h
  · cases h
    omega
  · split at h
    · cases h
      omega
    · split at h
      · cases h
      · split at h
        · cases h
          omega
        · cases h

/-- After a header less is left than the reader asks for. -/
theorem headerAct_progress (s : PesState) (hs : s.lookahead = 48) (hp : p.length = s.lookahead) :
    p.length - (headerAct s p).2 < (headerAct s p).1.lookahead := by
  rw [headerAct]
  split
  · dsimp only
    omega
  · split
    · dsimp only
      omega
    · dsimp only
      omega

theorem pesReader_lawful : Lawful pesReader where
  need_pos s := by
    have h := s.lookahead_ge
    unfold pesHeaderLookahead at h
    exact Nat.lt_of_lt_of_le (by decide : 0 < 48) h
  window s p hp := by
    have hsame := sameHeader_take p s.lookahead_ge
    change pesAct s p = pesAct s (p.take s.lookahead)
    rw [pesAct, pesAct, List.take_take, Nat.min_self, hsame.probe, hsame.packetLength,
      hsame.headerAct]
  progress s p hp := by
    have hge := s.lookahead_ge
    change p.length = s.lookahead at hp
    change p.length - (pesAct s p).2 < (pesAct s p).1.lookahead
    rw [pesAct]
    unfold pesHeaderLookahead at hge ⊢
    split
    · dsimp only
      omega
    · split
      · rename_i n hn
        have hpos := (probe_advance hn).1
        dsimp only
        omega
      · dsimp only
        omega
      · exact headerAct_progress s (by omega) hp

/-- The window starts after the skipped bytes, and no byte is lost. -/
structure Covers (w : Wrap) (pending : List UInt8) (v : Window) : Prop where
  skip : v.wrap.skip = 0
  lookahead : v.wrap.lookahead = w.lookahead
  bytes : v.wrap.leftover ++ v.src = pending
  dst : ∃ rest, pending = v.dst ++ rest
  enough : w.lookahead ≤ v.dst.length
  scanEnd : v.scanEnd = v.dst.length - w.lookahead

theorem window_short (srcSize : Nat) (h : (w.leftover ++ src).length < w.lookahead) :
    window w src srcSize = .error { w with leftover := w.leftover ++ src } := by
  rw [List.length_append] at h
  rw [window]
  dsimp only
  rw [if_pos (Or.inl h), if_pos (by omega), if_pos (by omega)]

theorem window_covers {w : Wrap} {src : List UInt8} (srcSize : Nat)
    (h : w.lookahead ≤ (w.leftover ++ src).length) (hskip : w.skip = 0) :
    ∃ v, window w src srcSize = .ok v ∧ Covers w (w.leftover ++ src) v := by
  rw [List.length_append] at h
  rw [window]
  dsimp only
  split
  · split
    · rename_i hshort
      rw [if_neg (by omega)]
      have hlength : (w.leftover ++ src.take (w.lookahead - w.leftover.length)).length =
          w.lookahead := by
        rw [List.length_append, List.length_take]
        omega
      refine ⟨_, rfl, hskip, rfl, ?_, ?_, hlength.ge, ?_⟩
      · rw [List.append_assoc, List.take_append_drop]
      · refine ⟨src.drop (w.lookahead - w.leftover.length), ?_⟩
        rw [List.append_assoc, List.take_append_drop]
      · rw [hlength, Nat.sub_self]
    · rename_i hlong
      exact ⟨_, rfl, hskip, rfl, rfl, ⟨src, rfl⟩, by dsimp only; omega, rfl⟩
  · refine ⟨_, rfl, hskip, rfl, rfl, ⟨[], (List.append_nil _).symm⟩, ?_, ?_⟩
    · rw [List.length_append]
      exact h
    · rw [List.length_append]

theorem skipBytes_short (h : (w.leftover ++ src).length < w.skip) :
    skipBytes w src = .error ⟨[], w.skip - (w.leftover ++ src).length, w.lookahead⟩ := by
  rw [List.length_append] at h ⊢
  rw [skipBytes, if_pos (by omega)]
  dsimp only
  rw [if_pos (by omega), Nat.sub_sub]

theorem skipBytes_all {w : Wrap} {src : List UInt8}
    (h : w.skip ≤ (w.leftover ++ src).length) : ∃ leftover rest,
    skipBytes w src = .ok (⟨leftover, 0, w.lookahead⟩, rest) ∧
      leftover ++ rest = (w.leftover ++ src).drop w.skip := by
  rw [List.length_append] at h
  rw [skipBytes]
  split
  · rename_i hlong
    have hdrop : (w.leftover ++ src).drop w.skip = src.drop (w.skip - w.leftover.length) := by
      rw [List.drop_append, List.drop_eq_nil_of_le (Nat.le_of_lt hlong), List.nil_append]
    dsimp only
    rw [if_neg (by omega)]
    exact ⟨[], src.drop (w.skip - w.leftover.length), rfl, hdrop.symm⟩
  · refine ⟨_, _, rfl, ?_⟩
    rw [List.drop_append_of_le_length (by omega)]

/-- The probes of a scan are steps of the reader. Before the last one the scan is
still within the window. -/
theorem scan_reads {s : PesState} (hs : s.lookahead = 48) {p rest : List UInt8}
    (hp : 48 ≤ p.length) (fuel : Nat) {distance : Nat} (hd : distance ≤ p.length - 48)
    (hfuel : p.length < fuel + distance) :
    match scan p (p.length - 48) fuel distance with
    | .nothing d => 0 < d ∧ read pesReader ⟨s, distance, []⟩ (p ++ rest) =
        read pesReader ⟨s, d, []⟩ (p ++ rest)
    | .foreign d => d + 48 ≤ p.length ∧ probe (p.drop d) = .foreign ∧
        read pesReader ⟨s, distance, []⟩ (p ++ rest) = read pesReader ⟨s, d, []⟩ (p ++ rest)
    | .packet d => d + 48 ≤ p.length ∧ probe (p.drop d) = .packet ∧
        read pesReader ⟨s, distance, []⟩ (p ++ rest) =
          read pesReader ⟨s, d, []⟩ (p ++ rest) := by
  induction fuel generalizing distance with
  | zero => omega
  | succ fuel ih =>
    rw [scan]
    cases hprobe : probe (p.drop distance) with
    | advance n =>
      obtain ⟨hn, hn3⟩ := probe_advance hprobe
      have hlength : ((p ++ rest).drop distance).length = p.length + rest.length - distance := by
        rw [List.length_drop, List.length_append]
      have hsame : SameHeader ((p ++ rest).drop distance) (p.drop distance) := by
        rw [List.drop_append_of_le_length (by omega)]
        apply sameHeader_append
        rw [List.length_drop]
        unfold pesHeaderLookahead
        omega
      have hact : pesAct s ((p ++ rest).drop distance) = (s, n) := by
        rw [pesAct, if_neg (by unfold pesHeaderLookahead; omega), hsame.probe, hprobe]
      have hstep : read pesReader ⟨s, distance, []⟩ (p ++ rest) =
          read pesReader ⟨s, distance + n, []⟩ (p ++ rest) := by
        rw [read_drop s (by rw [List.length_append]; omega),
          read_act pesReader_lawful s (by change s.lookahead ≤ _; omega)]
        change read pesReader ⟨(pesAct s _).1, (pesAct s _).2, []⟩ _ = _
        rw [hact]
        dsimp only
        rw [read_drop s (by omega : n ≤ _), List.drop_drop]
        exact (read_drop s (by rw [List.length_append]; omega)).symm
      dsimp only
      split
      · rename_i hend
        split at hend
        · cases hend
          exact ⟨by omega, hstep⟩
        · rename_i hin
          have hnext := ih (by omega) (by omega : p.length < fuel + (distance + n))
          rw [hend] at hnext
          exact ⟨hnext.1, hstep.trans hnext.2⟩
      · rename_i hend
        split at hend
        · cases hend
        · have hnext := ih (by omega) (by omega : p.length < fuel + (distance + n))
          rw [hend] at hnext
          exact ⟨hnext.1, hnext.2.1, hstep.trans hnext.2.2⟩
      · rename_i hend
        split at hend
        · cases hend
        · have hnext := ih (by omega) (by omega : p.length < fuel + (distance + n))
          rw [hend] at hnext
          exact ⟨hnext.1, hnext.2.1, hstep.trans hnext.2.2⟩
    | foreign => exact ⟨by omega, hprobe, rfl⟩
    | packet => exact ⟨by omega, hprobe, rfl⟩

variable {capacity : Nat}

theorem Err.code_nonneg (err : Option Err) : 0 ≤ Err.code err := by
  rcases err with _ | err
  · exact le_rfl
  · cases err <;> decide

/-- Only a callback function makes `VBI_ERR_CALLBACK`. -/
def FromUnits (r : Option Refusal) : Prop := r ≠ some (.failed .callback)

theorem storeLine_fromUnits (v : Service) (f : Frame capacity) (data : List UInt8) :
    FromUnits (storeLine v f data).2 := by
  rw [storeLine]
  split
  · rename_i r hr
    rw [lineAddress] at hr
    dsimp only at hr
    rintro ⟨⟩
    repeat' split at hr
    all_goals cases hr
  · split <;> rintro ⟨⟩

theorem dataUnit_fromUnits (f : Frame capacity) (id : UInt8) (data : List UInt8) :
    FromUnits (dataUnit f id data).2 := by
  have hline : ∀ v, FromUnits (lineUnit v f data).2 := by
    intro v
    rw [lineUnit]
    split
    · rintro ⟨⟩
    · exact storeLine_fromUnits v f data
  have hteletext : FromUnits (teletextUnit f data).2 := by
    rw [teletextUnit]
    split
    · rintro ⟨⟩
    · split
      · rintro ⟨⟩
      · exact storeLine_fromUnits _ f data
  rw [dataUnit]
  split
  · exact hteletext
  split
  · exact hline vps
  split
  · exact hline wss
  split
  · exact hline zvbiWssCpr1204
  split
  · exact hline zvbiClosedCaption525
  split
  · exact hline closedCaption
  · rintro ⟨⟩

theorem extractDataUnits_fromUnits (f : Frame capacity) (src : List UInt8) :
    FromUnits (extractDataUnits f src).refusal := by
  induction src using unit_induction generalizing f with
  | short src h =>
    rw [extractDataUnits_short f h]
    rintro ⟨⟩
  | unit id length p hp ih =>
    have hunit := dataUnit_fromUnits f id (p.take length.toNat)
    rw [extractDataUnits_unit f id length hp]
    split
    · rintro ⟨⟩
    · split
      · rename_i h
        rw [h] at hunit
        exact hunit
      · exact ih _

theorem packetFrameLoop_always (passes : Nat) (d : Decoder) (src : List UInt8) :
    (packetFrameLoop (some always) passes d src).err ≠ some .callback := by
  induction passes generalizing d src with
  | zero => rintro ⟨⟩
  | succ passes ih =>
    have hunits := extractDataUnits_fromUnits (commence d).frame src
    rw [packetFrameLoop]
    dsimp only
    split
    · rintro ⟨⟩
    · rename_i err herr
      rintro ⟨⟩
      exact hunits herr
    · rw [if_pos (by rfl)]
      exact ih _ _

theorem demuxPesPacketFrame_always (d : Decoder) (src : List UInt8) :
    (demuxPesPacketFrame (some always) d src).err ≠ some .callback :=
  packetFrameLoop_always _ _ _

theorem takePacket_eq (d : Decoder) (payload : List UInt8) :
    takePacket d payload = (demuxPesPacketFrame (some always) (newPacket d) payload).dx :=
  if_neg (not_lt.mpr (Err.code_nonneg _))

def context (c : Config PesState UInt8) : PesDemux :=
  ⟨⟨c.held, c.skip, c.state.lookahead⟩, c.state.decoder⟩

/-- What the code does with a window is what the reader does. -/
theorem pesScan_reads {s : PesState} (hs : s.lookahead = 48) {leftover p rest : List UInt8}
    (hp : 48 ≤ p.length) : ∃ t skip, 0 < skip ∧
    pesScan ⟨⟨leftover, 0, s.lookahead⟩, s.decoder⟩ p (p.length - 48) =
      ⟨⟨leftover, skip, t.lookahead⟩, t.decoder⟩ ∧
    read pesReader ⟨s, 0, []⟩ (p ++ rest) = read pesReader ⟨t, skip, []⟩ (p ++ rest) := by
  have hscan := @scan_reads s hs p rest hp (p.length + 1) 0 (Nat.zero_le _)
    (Nat.lt_succ_self p.length)
  rw [pesScan]
  -- one more step of the reader at the place where the scan ended
  have hact : ∀ d, d + 48 ≤ p.length → SameHeader ((p ++ rest).drop d) (p.drop d) ∧
      read pesReader ⟨s, d, []⟩ (p ++ rest) =
        read pesReader ⟨(pesAct s ((p ++ rest).drop d)).1,
          d + (pesAct s ((p ++ rest).drop d)).2, []⟩ (p ++ rest) := by
    intro d hd
    have hlength : d ≤ (p ++ rest).length := by
      rw [List.length_append]
      omega
    constructor
    · rw [List.drop_append_of_le_length (by omega)]
      apply sameHeader_append
      rw [List.length_drop]
      unfold pesHeaderLookahead
      omega
    · rw [read_drop s hlength, read_act pesReader_lawful s (by
        change s.lookahead ≤ _
        rw [List.length_drop, List.length_append]
        omega)]
      change read pesReader ⟨(pesAct s _).1, (pesAct s _).2, []⟩ _ = _
      generalize pesAct s ((p ++ rest).drop d) = next
      obtain ⟨t, n⟩ := next
      by_cases hn : n ≤ ((p ++ rest).drop d).length
      · rw [read_drop t hn, List.drop_drop]
        rw [List.length_drop] at hn
        exact (read_drop t (by omega)).symm
      · rw [read_skip t (by omega)]
        rw [List.length_drop] at hn ⊢
        rw [read_skip t (by omega)]
        congr 1
        omega
  cases hend : scan p (p.length - 48) (p.length + 1) 0 with
  | nothing d =>
    rw [hend] at hscan
    exact ⟨s, d, hscan.1, rfl, hscan.2⟩
  | foreign d =>
    rw [hend] at hscan
    obtain ⟨hd, hprobe, hread⟩ := hscan
    obtain ⟨hsame, hnext⟩ := hact d hd
    rw [pesAct, if_neg (by unfold pesHeaderLookahead; omega), hsame.probe, hprobe] at hnext
    refine ⟨s, d + 6 + packetLength (p.drop d), by omega, rfl, ?_⟩
    rw [hread, hnext, hsame.packetLength, Nat.add_assoc]
  | packet d =>
    rw [hend] at hscan
    obtain ⟨hd, hprobe, hread⟩ := hscan
    obtain ⟨hsame, hnext⟩ := hact d hd
    rw [pesAct, if_neg (by unfold pesHeaderLookahead; omega), hsame.probe, hprobe] at hnext
    dsimp only at hnext ⊢
    rw [hsame.headerAct] at hnext
    refine ⟨(headerAct s (p.drop d)).1, d + (headerAct s (p.drop d)).2, ?_, ?_,
      hread.trans hnext⟩
    · rw [headerAct]
      split
      · dsimp only
        omega
      · split <;> dsimp only <;> omega
    · rw [pesHeader, headerAct]
      split
      · rw [← Nat.add_assoc]
        rfl
      · split
        · rename_i hvalid
          rw [hvalid, ← Nat.add_assoc]
          rfl
        · rename_i hvalid
          rw [hvalid]

/-- Every pass of the loop reads on, until there is not enough data. -/
theorem pesLoop_reads (srcSize fuel : Nat) (s : PesState) (skip : Nat) {leftover src : List UInt8}
    (hfuel : (leftover ++ src).length - skip < fuel) :
    pesLoop (some always) srcSize fuel ⟨⟨leftover, skip, s.lookahead⟩, s.decoder⟩ src =
      ⟨context (read pesReader ⟨s, skip, []⟩ (leftover ++ src)), none, []⟩ := by
  induction fuel generalizing s skip leftover src with
  | zero => omega
  | succ fuel ih =>
    have hge := s.lookahead_ge
    unfold pesHeaderLookahead at hge
    by_cases hskip : (leftover ++ src).length < skip
    · rw [pesLoop, wrapAround, skipBytes_short hskip, read_skip s (by omega)]
      rfl
    obtain ⟨kept, rest, hbytes, hpending⟩ :=
      @skipBytes_all ⟨leftover, skip, s.lookahead⟩ src (Nat.not_lt.mp hskip)
    dsimp only at hbytes hpending
    rw [read_drop s (by omega), ← hpending]
    have hlength : (kept ++ rest).length = (leftover ++ src).length - skip := by
      rw [hpending, List.length_drop]
    by_cases hshort : (kept ++ rest).length < s.lookahead
    · rw [pesLoop, wrapAround, hbytes]
      dsimp only
      rw [window_short srcSize hshort, read_hold s (by rwa [List.nil_append])]
      rfl
    obtain ⟨v, hv, hcovers⟩ := @window_covers ⟨kept, 0, s.lookahead⟩ rest srcSize
      (Nat.not_lt.mp hshort) rfl
    obtain ⟨tail, htail⟩ := hcovers.dst
    have henough := hcovers.enough
    obtain ⟨⟨held, vskip, vlookahead⟩, dst, scanEnd, vsrc⟩ := v
    obtain ⟨hvskip, hvlookahead, hvbytes, -, -, hvend⟩ := hcovers
    dsimp only at hv hvskip hvlookahead hvbytes hvend henough htail
    subst hvskip hvlookahead hvend
    rw [pesLoop, wrapAround, hbytes]
    dsimp only
    rw [hv]
    dsimp only
    by_cases hpayload : pesHeaderLookahead < s.lookahead
    · have hact : pesAct s (kept ++ rest) =
          (⟨pesHeaderLookahead, takePacket s.decoder (dst.take s.lookahead), le_rfl⟩,
            s.lookahead) := by
        rw [pesAct, if_pos hpayload, htail, List.take_append_of_le_length henough]
      rw [if_pos hpayload, if_neg (demuxPesPacketFrame_always _ _), pesPacketDone]
      rw [read_act pesReader_lawful s (Nat.not_lt.mp hshort)]
      change _ = Result.mk (context (read pesReader ⟨(pesAct s _).1, (pesAct s _).2, []⟩ _)) _ _
      rw [hact, ← hvbytes]
      apply ih ⟨pesHeaderLookahead, takePacket s.decoder (dst.take s.lookahead), le_rfl⟩
      dsimp only
      rw [hvbytes]
      omega
    · have hs : s.lookahead = 48 := by
        unfold pesHeaderLookahead at hpayload
        omega
      rw [hs] at henough
      obtain ⟨t, next, hnext, hscan, hread⟩ :=
        @pesScan_reads s hs held dst tail henough
      rw [if_neg hpayload, hs]
      rw [hs] at hscan
      rw [hscan, htail, hread, ← htail, ← hvbytes]
      apply ih t
      rw [hvbytes]
      omega

/-- A call reads its buffer, whatever the calls before were. -/
theorem demuxPesPacket_reads {c : Config PesState UInt8} (hc : Settled pesReader c)
    (src : List UInt8) :
    demuxPesPacket (some always) (context c) src = ⟨context (read pesReader c src), none, []⟩ := by
  have hloop := @pesLoop_reads src.length (c.held.length + src.length + 2) c.state c.skip c.held
    src (by rw [List.length_append]; omega)
  rw [read_held hc] at hloop
  exact hloop

/-- The reader after `vbi_dvb_pes_demux_new()`. -/
def newReader : Config PesState UInt8 := ⟨⟨pesHeaderLookahead, resetDecoder, le_rfl⟩, 0, []⟩

theorem context_newReader : context newReader = pesDemuxNew := rfl

theorem settled_newReader : Settled pesReader newReader := ⟨Or.inl rfl, by decide⟩

end DvbPesReader
