import Zvbi.DvbMuxPackets

/-!
# The coroutine and the callback interface

`vbi_dvb_mux_cor()` stores a part of the packets of a frame in each call. What it has
not stored yet is a function of its state: the rest of a TS packet, and the packets
which follow. Each call takes from it as many bytes as the caller has room for, so in
the end all calls together store what `vbi_dvb_mux_feed()` passes on.
-/

namespace DvbMuxStreams
open DvbMuxUnits DvbMux DvbMuxPackets
open DvbFrame (Sliced)

def encode (o : Options) (mx : State) (f : FrameData) :
    Except Fault (RawLine × Option (List UInt8)) :=
  if f.validSp then do
    let g ← generatePesPacket o mx f
    match g.packet with
    | .error _ => return (g.raw, none)
    | .ok pes => return (g.raw, if g.rest.isEmpty then some pes else none)
  else
    .ok (mx.raw, none)

variable {mx mx' : State} {f : FrameData} {o : Options} {pes : List UInt8}

theorem encode_congr (o : Options) (h : mx.raw = mx'.raw) (f : FrameData) :
    encode o mx f = encode o mx' f := by
  simp only [encode, generatePesPacket_congr o h, h]

variable {raw : RawLine} {n : Nat} {sizes : List Nat}

theorem encode_length (h : encode o mx f = .ok (raw, some pes)) :
    184 ∣ pes.length ∧ 184 ≤ pes.length ∧ pes.length ≤ maxPesPacketSize := by
  rw [encode] at h
  split at h
  · cases hg : generatePesPacket o mx f with
    | error e =>
      rw [hg] at h
      cases h
    | ok g =>
      rw [hg] at h
      cases hp : g.packet with
      | error e =>
        simp only [hp, pure, Except.pure, bind, Except.bind] at h
        cases h
      | ok p =>
        simp only [hp, pure, Except.pure, bind, Except.bind] at h
        split at h
        · cases h
          exact generated_length hg hp
        · cases h
  · cases h

structure Idle (mx : State) : Prop where
  done : mx.corEnd ≤ mx.corOffset
  header : 4 ≤ mx.packet.length

def tsCount (o : Options) (pes : List UInt8) : Nat := if o.pid = 0 then 0 else pes.length / 184

structure After (o : Options) (mx : State) (raw : RawLine) (pes : Option (List UInt8))
    (mx' : State) : Prop where
  idle : Idle mx'
  raw : mx'.raw = raw
  counter : mx'.continuityCounter = mx.continuityCounter + pes.elim 0 (tsCount o)

theorem setPacket_drop (h : 4 ≤ mx.packet.length) (raw : RawLine) (pes : List UInt8) :
    (mx.setPacket raw pes).packet.drop 4 = pes :=
  List.drop_left' (List.length_take_of_le h)

theorem setPacket_length (h : 4 ≤ mx.packet.length) (raw : RawLine) (pes : List UInt8) :
    (mx.setPacket raw pes).packet.length = 4 + pes.length := by
  rw [State.setPacket, List.length_append, List.length_take_of_le h]

theorem feedPacket_spec (o : Options) (h : Idle mx) (raw : RawLine) (hdvd : 184 ∣ pes.length)
    (hpos : 184 ≤ pes.length) :
    ∃ mx', feedPacket o accept (mx.setPacket raw pes) pes =
        ⟨mx', true, packetsOf o mx.continuityCounter pes⟩ ∧ After o mx raw (some pes) mx' := by
  have hlength := setPacket_length h.header raw pes
  have hheader : 4 ≤ (mx.setPacket raw pes).packet.length := by omega
  by_cases hpid : o.pid = 0
  · refine ⟨mx.setPacket raw pes, ?_, ⟨h.done, hheader⟩, rfl, ?_⟩
    · rw [feedPacket, if_pos hpid, packetsOf, if_pos hpid]
      rfl
    · rw [Option.elim_some, tsCount, if_pos hpid]
      rfl
  · have hsize : 0 + 184 * (pes.length / 184) = pes.length := by omega
    obtain ⟨mx', hloop, hraw, hcounter, hlen, hoffset, hend⟩ :=
      feedLoop_spec o (by omega : 0 < pes.length / 184) (Nat.div_le_self _ _)
        (by omega : 0 + 4 + 184 * (pes.length / 184) ≤ (mx.setPacket raw pes).packet.length) []
    rw [hsize, setPacket_drop h.header] at hloop
    refine ⟨mx', ?_, ⟨?_, ?_⟩, hraw, ?_⟩
    · rw [feedPacket, if_neg hpid, packetsOf, if_neg hpid, hloop]
      rfl
    · rw [hoffset, hend]
      exact h.done
    · rw [hlen]
      exact hheader
    · rw [hcounter, Option.elim_some, tsCount, if_neg hpid]
      rfl

/-- `vbi_dvb_mux_feed()` with a callback function which takes all packets. -/
theorem feed_spec (h : Idle mx) (f : FrameData) :
    (∀ e, encode o mx f = .error e → feed o (some accept) mx f = .error e) ∧
    ∀ raw pes, encode o mx f = .ok (raw, pes) → ∃ mx',
      feed o (some accept) mx f =
        .ok ⟨mx', pes.isSome, pes.elim [] (packetsOf o mx.continuityCounter)⟩ ∧
      After o mx raw pes mx' := by
  have hdrop : dropUnconsumed mx = mx := if_neg (Nat.not_lt.mpr h.done)
  by_cases hvalid : f.validSp = true
  · simp only [encode, feed, hvalid, if_true, hdrop]
    cases hg : generatePesPacket o mx f with
    | error e =>
      refine ⟨?_, ?_⟩
      · rintro e' ⟨⟩
        rfl
      · rintro raw pes ⟨⟩
    | ok g =>
      simp only [bind, Except.bind, pure, Except.pure]
      cases hp : g.packet with
      | error e =>
        refine ⟨?_, ?_⟩
        · rintro e' ⟨⟩
        · rintro raw pes ⟨⟩
          exact ⟨_, rfl, ⟨h.done, h.header⟩, rfl, rfl⟩
      | ok p =>
        obtain ⟨hdvd, hpos, -⟩ := generated_length hg hp
        refine ⟨?_, ?_⟩
        · rintro e' ⟨⟩
        rintro raw pes ⟨⟩
        cases hrest : g.rest.isEmpty with
        | true =>
          obtain ⟨mx', hfeed, hafter⟩ := feedPacket_spec o h g.raw hdvd hpos
          refine ⟨mx', ?_, hafter⟩
          dsimp only
          rw [if_pos rfl, hfeed]
          rfl
        | false =>
          refine ⟨mx.setPacket g.raw p, rfl, ⟨h.done, ?_⟩, rfl, rfl⟩
          rw [setPacket_length h.header]
          exact Nat.le_add_right _ _
  · simp only [encode, feed, hvalid, Bool.false_eq_true, if_false]
    refine ⟨?_, ?_⟩
    · rintro e' ⟨⟩
    · rintro raw pes ⟨⟩
      exact ⟨mx, rfl, h, rfl, rfl⟩

def tsLeft (mx : State) : Nat := (mx.corEnd - (mx.corOffset + mx.corTsLeft)) / 184

/-- The bytes the coroutine has not stored yet. -/
def remaining (o : Options) (mx : State) : List UInt8 :=
  if o.pid = 0 then
    (mx.packet.drop mx.corOffset).take (mx.corEnd - mx.corOffset)
  else
    (mx.packet.drop mx.corOffset).take mx.corTsLeft ++
      (tsPackets o.pid (tsLeft mx) mx.continuityCounter (mx.corOffset + mx.corTsLeft - 4)
        (mx.packet.drop (mx.corOffset + mx.corTsLeft))).flatten

structure Suspended (o : Options) (mx : State) : Prop where
  length : mx.corEnd ≤ mx.packet.length
  offset : mx.corOffset ≤ mx.corEnd
  header : 4 ≤ mx.packet.length
  packet : o.pid ≠ 0 → mx.corOffset + mx.corTsLeft ≤ mx.corEnd ∧
    184 ∣ mx.corEnd - (mx.corOffset + mx.corTsLeft) ∧ 4 ≤ mx.corOffset + mx.corTsLeft

theorem tsPackets_flatten_length (pid : Nat) {k counter offset : Nat} (h : 184 * k ≤ pes.length) :
    (tsPackets pid k counter offset pes).flatten.length = 188 * k := by
  induction k generalizing counter offset pes with
  | zero => rfl
  | succ k ih =>
    have hrest : 184 * k ≤ (pes.drop 184).length := by
      rw [List.length_drop]
      omega
    rw [tsPackets_succ, List.flatten_cons, List.length_append, List.length_append,
      tsPacketHeader_length, List.length_take_of_le (by omega), ih hrest]
    omega

theorem remaining_length (h : Suspended o mx) :
    (remaining o mx).length =
      if o.pid = 0 then mx.corEnd - mx.corOffset else mx.corTsLeft + 188 * tsLeft mx := by
  have hlength := h.length
  rw [remaining]
  split
  · rw [List.length_take, List.length_drop]
    omega
  · rename_i hpid
    obtain ⟨hend, -, -⟩ := h.packet hpid
    have hrest : 184 * tsLeft mx ≤ (mx.packet.drop (mx.corOffset + mx.corTsLeft)).length := by
      rw [List.length_drop, tsLeft]
      omega
    rw [List.length_append, tsPackets_flatten_length _ hrest, List.length_take, List.length_drop]
    omega

/-- The last packet is stored when nothing is left. -/
theorem remaining_nil (h : Suspended o mx) :
    (remaining o mx).length = 0 ↔ mx.corEnd ≤ mx.corOffset := by
  rw [remaining_length h, tsLeft]
  split
  · omega
  · rename_i hpid
    obtain ⟨hend, hdvd, -⟩ := h.packet hpid
    omega

/-- The header of the next TS packet is written when the last one is stored. -/
theorem remaining_header (h : Suspended o mx) (hpid : o.pid ≠ 0)
    (hleft : mx.corTsLeft = 0) (hmore : mx.corOffset < mx.corEnd)
    (hmx' : mx' = { generateTsPacketHeader o mx (mx.corOffset - 4) with
      corOffset := mx.corOffset - 4
      corTsLeft := 188 }) :
    Suspended o mx' ∧ remaining o mx' = remaining o mx ∧
      mx'.continuityCounter + tsLeft mx' = mx.continuityCounter + tsLeft mx := by
  obtain ⟨hend, hdvd, hfour⟩ := h.packet hpid
  have hlength := h.length
  have hheader := h.header
  rw [hleft] at hend hdvd hfour
  have hsize := generateTsPacketHeader_length o
    (by omega : mx.corOffset - 4 + 4 ≤ mx.packet.length)
  have hcount : tsLeft mx = (mx.corEnd - (mx.corOffset + 184)) / 184 + 1 := by
    rw [tsLeft, hleft]
    omega
  have hbehind : mx.corOffset - 4 + 188 = mx.corOffset + 184 := by omega
  have hcount' : tsLeft mx' = (mx.corEnd - (mx.corOffset + 184)) / 184 := by
    rw [hmx', tsLeft]
    dsimp only [generateTsPacketHeader]
    rw [hbehind]
  refine ⟨?_, ?_, ?_⟩
  · rw [hmx']
    refine ⟨?_, ?_, ?_, ?_⟩
    · dsimp only
      rw [hsize]
      exact hlength
    · dsimp only [generateTsPacketHeader]
      omega
    · dsimp only
      rw [hsize]
      exact hheader
    · intro _
      dsimp only [generateTsPacketHeader]
      refine ⟨by omega, by omega, by omega⟩
  · have hsub : mx.corOffset - 4 + 4 = mx.corOffset := by omega
    have hoffset : mx.corOffset - 4 + 188 - 4 = mx.corOffset - 4 + 184 := by omega
    rw [remaining, remaining, if_neg hpid, if_neg hpid, hcount', hcount, tsPackets_succ, hleft,
      List.take_zero, List.nil_append, List.flatten_cons, hmx']
    simp only [Nat.add_zero]
    rw [generateTsPacketHeader_counter, generateTsPacketHeader_drop o (by omega),
      generateTsPacketHeader_behind o (by omega) (by omega), List.drop_drop, take_tsPacket, hsub,
      hoffset, hbehind]
  · rw [hcount', hcount, hmx']
    dsimp only
    rw [generateTsPacketHeader_counter]
    omega

theorem remaining_take (h : Suspended o mx) (hpid : o.pid ≠ 0) {size : Nat}
    (hsize : size ≤ mx.corTsLeft)
    (hmx' : mx' = { mx with
      corOffset := mx.corOffset + size
      corTsLeft := mx.corTsLeft - size }) :
    Suspended o mx' ∧
      remaining o mx = (mx.packet.drop mx.corOffset).take size ++ remaining o mx' ∧
      ((mx.packet.drop mx.corOffset).take size).length = size ∧ tsLeft mx' = tsLeft mx := by
  obtain ⟨hend, hdvd, hfour⟩ := h.packet hpid
  have hlength := h.length
  have hsum : mx.corOffset + size + (mx.corTsLeft - size) = mx.corOffset + mx.corTsLeft := by omega
  have hcount : tsLeft mx' = tsLeft mx := by
    rw [hmx', tsLeft, tsLeft]
    dsimp only
    rw [hsum]
  refine ⟨?_, ?_, ?_, hcount⟩
  · rw [hmx']
    refine ⟨hlength, ?_, h.header, ?_⟩
    · dsimp only
      omega
    · intro _
      dsimp only
      rw [hsum]
      exact ⟨hend, hdvd, hfour⟩
  · rw [remaining, remaining, if_neg hpid, if_neg hpid, hcount, hmx']
    dsimp only
    rw [hsum, ← List.append_assoc]
    congr 1
    have hparts : mx.corTsLeft = size + (mx.corTsLeft - size) := by omega
    nth_rewrite 1 [hparts]
    rw [List.take_add, List.drop_drop]
  · rw [List.length_take, List.length_drop]
    omega

/-- The context from which the loop of the coroutine stores bytes: in the middle of a
TS packet. -/
def present (o : Options) (mx : State) : State :=
  if mx.corTsLeft = 0 then
    { generateTsPacketHeader o mx (mx.corOffset - 4) with
      corOffset := mx.corOffset - 4
      corTsLeft := 188 }
  else mx

def advance (mx : State) (size : Nat) : State :=
  { mx with
    corOffset := mx.corOffset + size
    corTsLeft := mx.corTsLeft - size }

theorem corLoop_succ (o : Options) (fuel : Nat) (mx : State) (pLeft : Nat) (bytes : List UInt8) :
    corLoop o (fuel + 1) mx pLeft bytes =
      if 0 < pLeft - min pLeft (present o mx).corTsLeft ∧
          (advance (present o mx) (min pLeft (present o mx).corTsLeft)).corOffset <
            (advance (present o mx) (min pLeft (present o mx).corTsLeft)).corEnd then
        corLoop o fuel (advance (present o mx) (min pLeft (present o mx).corTsLeft))
          (pLeft - min pLeft (present o mx).corTsLeft)
          (bytes ++ ((present o mx).packet.drop (present o mx).corOffset).take
            (min pLeft (present o mx).corTsLeft))
      else
        (advance (present o mx) (min pLeft (present o mx).corTsLeft),
          bytes ++ ((present o mx).packet.drop (present o mx).corOffset).take
            (min pLeft (present o mx).corTsLeft)) := rfl

def counterAfter (o : Options) (mx : State) : Nat :=
  mx.continuityCounter + if o.pid = 0 then 0 else tsLeft mx

structure SamePacket (o : Options) (mx mx' : State) : Prop where
  raw : mx'.raw = mx.raw
  counter : counterAfter o mx' = counterAfter o mx

theorem SamePacket.refl (o : Options) (mx : State) : SamePacket o mx mx := ⟨rfl, rfl⟩

theorem SamePacket.trans {mx'' : State} (h : SamePacket o mx mx') (h' : SamePacket o mx' mx'') :
    SamePacket o mx mx'' :=
  ⟨h'.raw.trans h.raw, h'.counter.trans h.counter⟩

theorem counterAfter_ts (hpid : o.pid ≠ 0) (mx : State) :
    counterAfter o mx = mx.continuityCounter + tsLeft mx := by
  rw [counterAfter, if_neg hpid]

theorem counterAfter_pes (hpid : o.pid = 0) (mx : State) :
    counterAfter o mx = mx.continuityCounter := by
  rw [counterAfter, if_pos hpid, Nat.add_zero]

theorem present_spec (h : Suspended o mx) (hpid : o.pid ≠ 0) (hmore : mx.corOffset < mx.corEnd) :
    Suspended o (present o mx) ∧ remaining o (present o mx) = remaining o mx ∧
      SamePacket o mx (present o mx) ∧ 0 < (present o mx).corTsLeft := by
  rw [present]
  split
  · rename_i hleft
    obtain ⟨hsus, hrem, hcounter⟩ := remaining_header h hpid hleft hmore rfl
    refine ⟨hsus, hrem, ⟨rfl, ?_⟩, Nat.zero_lt_succ 187⟩
    rw [counterAfter_ts hpid, counterAfter_ts hpid]
    exact hcounter
  · rename_i hleft
    exact ⟨h, rfl, SamePacket.refl o mx, Nat.pos_of_ne_zero hleft⟩

structure Stores (o : Options) (mx : State) (size : Nat) (mx' : State) (bytes : List UInt8) :
    Prop where
  suspended : Suspended o mx'
  bytes : bytes = (remaining o mx).take size
  remaining : remaining o mx' = (remaining o mx).drop size
  same : SamePacket o mx mx'

/-- The loop of the coroutine stores what is left of the packet, as far as there is room. -/
theorem corLoop_spec (hpid : o.pid ≠ 0) {fuel pLeft : Nat} (hpos : 0 < pLeft) (hfuel : pLeft ≤ fuel)
    (h : Suspended o mx) (hmore : mx.corOffset < mx.corEnd) (bytes : List UInt8) :
    ∃ mx' stored, corLoop o fuel mx pLeft bytes = (mx', bytes ++ stored) ∧
      Stores o mx pLeft mx' stored := by
  induction fuel generalizing mx pLeft bytes with
  | zero => omega
  | succ fuel ih =>
    obtain ⟨hsus, hrem, hsame, hleft⟩ := present_spec h hpid hmore
    rw [corLoop_succ]
    generalize present o mx = now at *
    obtain ⟨hsus', htake, hsize, hcount⟩ :=
      remaining_take hsus hpid (Nat.min_le_right pLeft now.corTsLeft)
        (show advance now (min pLeft now.corTsLeft) = _ from rfl)
    have hmin : 0 < min pLeft now.corTsLeft := Nat.lt_min.mpr ⟨hpos, hleft⟩
    have hminLe := Nat.min_le_left pLeft now.corTsLeft
    generalize min pLeft now.corTsLeft = size at *
    have hsame' : SamePacket o mx (advance now size) := by
      refine hsame.trans ⟨rfl, ?_⟩
      rw [counterAfter_ts hpid, counterAfter_ts hpid, hcount]
      rfl
    rw [hrem] at htake
    have hstored : ((now.packet.drop now.corOffset).take size).length ≤ pLeft :=
      hsize.le.trans hminLe
    generalize (now.packet.drop now.corOffset).take size = stored at *
    split
    · rename_i hagain
      obtain ⟨mx', stored', hloop, hstores⟩ :=
        ih hagain.1 (by omega) hsus' hagain.2 (bytes ++ stored)
      refine ⟨mx', stored ++ stored', ?_, hstores.suspended, ?_, ?_, hsame'.trans hstores.same⟩
      · rw [hloop, List.append_assoc]
      · rw [hstores.bytes, htake, List.take_append, hsize, List.take_of_length_le hstored]
      · rw [hstores.remaining, htake, List.drop_append, hsize, List.drop_of_length_le hstored,
          List.nil_append]
    · rename_i hstop
      refine ⟨advance now size, stored, rfl, hsus', ?_, ?_, hsame'⟩
      -- there is no more room, or the packet is stored
      all_goals
        by_cases hroom : pLeft = size
        · rw [htake, hroom, ← hsize]
          simp only [List.take_left, List.drop_left]
        · have hend : (remaining o (advance now size)).length = 0 := by
            rw [remaining_nil hsus']
            omega
          rw [htake, List.length_eq_zero_iff.mp hend, List.append_nil]
          first
            | rw [List.take_of_length_le hstored]
            | rw [List.drop_of_length_le hstored]

theorem storePes_spec (hpid : o.pid = 0) (h : Suspended o mx) (bufferLeft : Nat) :
    Stores o mx bufferLeft
      { mx with corOffset := mx.corOffset + min bufferLeft (mx.corEnd - mx.corOffset) }
      ((mx.packet.drop mx.corOffset).take (min bufferLeft (mx.corEnd - mx.corOffset))) := by
  have hoffset := h.offset
  refine ⟨⟨h.length, ?_, h.header, ?_⟩, ?_, ?_, rfl, ?_⟩
  · dsimp only
    omega
  · intro hne
    exact absurd hpid hne
  · rw [remaining, if_pos hpid, List.take_take]
  · have hsub : mx.corEnd - (mx.corOffset + min bufferLeft (mx.corEnd - mx.corOffset)) =
        mx.corEnd - mx.corOffset - bufferLeft := by omega
    rw [remaining, remaining, if_pos hpid, if_pos hpid]
    dsimp only
    rw [List.drop_take, List.drop_drop, hsub]
    by_cases hroom : bufferLeft ≤ mx.corEnd - mx.corOffset
    · rw [Nat.min_eq_left hroom]
    · have hzero : mx.corEnd - mx.corOffset - bufferLeft = 0 := by omega
      rw [hzero, List.take_zero, List.take_zero]
  · rw [counterAfter_pes hpid, counterAfter_pes hpid]

/-- A call stores what is left of the packet, as far as there is room. The frame is
finished when nothing is left. -/
theorem corStore_spec (h : Suspended o mx) (hmore : mx.corOffset < mx.corEnd) {bufferLeft : Nat}
    (hpos : 0 < bufferLeft) (sliced : List Sliced) :
    ∃ mx' bytes, Stores o mx bufferLeft mx' bytes ∧
      corStore o mx bufferLeft sliced =
        ⟨mx', true, bytes, if mx'.corEnd ≤ mx'.corOffset then [] else sliced⟩ := by
  by_cases hpid : o.pid = 0
  · refine ⟨_, _, storePes_spec hpid h bufferLeft, ?_⟩
    rw [corStore, if_pos hpid]
  · obtain ⟨mx', bytes, hloop, hstores⟩ := corLoop_spec hpid hpos (Nat.le_refl _) h hmore []
    refine ⟨mx', bytes, hstores, ?_⟩
    rw [corStore, if_neg hpid, hloop, List.nil_append]

def begin (mx : State) (raw : RawLine) (pes : List UInt8) : State :=
  { mx.setPacket raw pes with
    corOffset := 4
    corEnd := pes.length + 4
    corTsLeft := 0 }

theorem begin_suspended (h : 4 ≤ mx.packet.length) (raw : RawLine) (hdvd : 184 ∣ pes.length) :
    Suspended o (begin mx raw pes) := by
  have hlength := setPacket_length h raw pes
  refine ⟨?_, ?_, ?_, ?_⟩
  · change pes.length + 4 ≤ (mx.setPacket raw pes).packet.length
    omega
  · change 4 ≤ pes.length + 4
    omega
  · change 4 ≤ (mx.setPacket raw pes).packet.length
    omega
  · intro _
    change 4 + 0 ≤ pes.length + 4 ∧ 184 ∣ pes.length + 4 - (4 + 0) ∧ 4 ≤ 4 + 0
    refine ⟨by omega, ?_, by omega⟩
    rwa [Nat.add_zero, Nat.add_sub_cancel]

theorem begin_remaining (h : 4 ≤ mx.packet.length) (raw : RawLine) (pes : List UInt8) :
    remaining o (begin mx raw pes) = (packetsOf o mx.continuityCounter pes).flatten := by
  have hdrop : (begin mx raw pes).packet.drop 4 = pes := setPacket_drop h raw pes
  have hcount : tsLeft (begin mx raw pes) = pes.length / 184 := by
    change (pes.length + 4 - (4 + 0)) / 184 = _
    rw [Nat.add_zero, Nat.add_sub_cancel]
  rw [remaining, packetsOf]
  split
  · change ((begin mx raw pes).packet.drop 4).take (pes.length + 4 - 4) = _
    rw [hdrop, Nat.add_sub_cancel, List.take_length, List.flatten_singleton]
  · rw [hcount]
    change ((begin mx raw pes).packet.drop 4).take 0 ++
      (tsPackets o.pid _ mx.continuityCounter 0 ((begin mx raw pes).packet.drop 4)).flatten = _
    rw [hdrop, List.take_zero, List.nil_append]

theorem begin_counter (o : Options) (mx : State) (raw : RawLine) (pes : List UInt8) :
    counterAfter o (begin mx raw pes) = mx.continuityCounter + tsCount o pes := by
  have hcount : tsLeft (begin mx raw pes) = pes.length / 184 := by
    change (pes.length + 4 - (4 + 0)) / 184 = _
    rw [Nat.add_zero, Nat.add_sub_cancel]
  rw [counterAfter, hcount]
  rfl

/-- The calls of `vbi_dvb_mux_cor()` for a frame, with so much room each: the context,
the bytes stored, and if the frame was finished, or has failed. -/
def corFrame (o : Options) (f : FrameData) : State → List Nat →
    Except Fault (State × List UInt8 × Bool)
  | mx, [] => .ok (mx, [], false)
  | mx, n :: ns => do
    let r ← cor o mx n f
    if r.ok = false ∨ r.sliced.isEmpty then
      return (r.mx, r.bytes, true)
    else
      let (mx, bytes, finished) ← corFrame o f r.mx ns
      return (mx, r.bytes ++ bytes, finished)

def corFrames (o : Options) : State → List (FrameData × List Nat) →
    Except Fault (List UInt8 × Bool)
  | _, [] => .ok ([], true)
  | mx, (f, sizes) :: fs => do
    let (mx, bytes, finished) ← corFrame o f mx sizes
    if finished then
      let (more, all) ← corFrames o mx fs
      return (bytes ++ more, all)
    else
      return (bytes, false)

/-- The packets `vbi_dvb_mux_feed()` passes on for all frames. -/
def feedFrames (o : Options) : State → List FrameData → Except Fault (List (List UInt8))
  | _, [] => .ok []
  | mx, f :: fs => do
    let r ← feed o (some accept) mx f
    let packets ← feedFrames o r.mx fs
    return r.packets ++ packets

/-- While a packet is not finished no frame is looked at. -/
theorem cor_suspended (hmore : mx.corOffset < mx.corEnd) (hpos : 0 < n)
    (hvalid : f.validSp = true) : cor o mx n f = .ok (corStore o mx n f.sliced) := by
  rw [cor, if_neg (Nat.ne_of_gt hpos), if_neg (by rw [hvalid]; decide), if_pos hmore]

/-- The calls for a frame store all what is left of its packet, if there is room. -/
theorem corFrame_suspended (hvalid : f.validSp = true) (hsliced : f.sliced ≠ [])
    (hsizes : ∀ n ∈ sizes, 0 < n) (h : Suspended o mx) (hmore : mx.corOffset < mx.corEnd) :
    ∃ mx', corFrame o f mx sizes = .ok (mx', (remaining o mx).take sizes.sum,
        decide ((remaining o mx).length ≤ sizes.sum)) ∧
      ((remaining o mx).length ≤ sizes.sum →
        Idle mx' ∧ mx'.raw = mx.raw ∧ mx'.continuityCounter = counterAfter o mx) := by
  have hleft : ∀ {mx : State}, Suspended o mx → mx.corOffset < mx.corEnd →
      ¬ (remaining o mx).length ≤ 0 := by
    intro mx h hmore hzero
    exact Nat.not_le_of_lt hmore ((remaining_nil h).mp (Nat.le_zero.mp hzero))
  induction sizes generalizing mx with
  | nil =>
    refine ⟨mx, ?_, fun hzero => absurd hzero (hleft h hmore)⟩
    rw [List.sum_nil, List.take_zero, decide_eq_false (hleft h hmore)]
    rfl
  | cons n ns ih =>
    have hpos := hsizes n List.mem_cons_self
    obtain ⟨mx', bytes, hstores, hcor⟩ := corStore_spec h hmore hpos f.sliced
    have hrest : (remaining o mx').length = (remaining o mx).length - n := by
      rw [hstores.remaining, List.length_drop]
    have hnil := remaining_nil hstores.suspended
    rw [corFrame, cor_suspended hmore hpos hvalid, hcor, List.sum_cons]
    by_cases hend : mx'.corEnd ≤ mx'.corOffset
    · -- the last byte is stored
      have hroom : (remaining o mx).length ≤ n := by
        rw [← hnil, hrest] at hend
        omega
      have hzero : tsLeft mx' = 0 := by
        rw [tsLeft]
        omega
      refine ⟨mx', ?_, fun _ => ⟨⟨hend, hstores.suspended.header⟩, hstores.same.raw, ?_⟩⟩
      · simp only [hend, if_true, List.isEmpty_nil, or_true, bind, Except.bind, pure, Except.pure]
        rw [hstores.bytes, List.take_of_length_le hroom, List.take_of_length_le (by omega),
          decide_eq_true (by omega)]
      · rw [← hstores.same.counter, counterAfter, hzero]
        split <;> rfl
    · have hmore' : mx'.corOffset < mx'.corEnd := Nat.lt_of_not_le hend
      obtain ⟨last, hloop, hlast⟩ := ih (fun m hm => hsizes m (List.mem_cons_of_mem n hm))
        hstores.suspended hmore'
      have hmoreLeft : n ≤ (remaining o mx).length := by
        have hpos' := hleft hstores.suspended hmore'
        omega
      refine ⟨last, ?_, ?_⟩
      · simp only [hend, if_false, List.isEmpty_iff, hsliced, Bool.true_eq_false, or_self, bind,
          Except.bind, pure, Except.pure]
        rw [hloop]
        dsimp only
        rw [hrest, hstores.bytes, hstores.remaining, List.take_add]
        congr 3
        simp only [decide_eq_decide]
        omega
      · intro hroom
        obtain ⟨hidle, hraw, hcounter⟩ := hlast (by omega)
        exact ⟨hidle, hraw.trans hstores.same.raw, hcounter.trans hstores.same.counter⟩

theorem cor_idle (h : Idle mx) (hpos : 0 < n) (hsliced : f.sliced ≠ []) :
    (∀ e, encode o mx f = .error e → cor o mx n f = .error e) ∧
    (∀ raw, encode o mx f = .ok (raw, none) → ∃ mx' left,
      cor o mx n f = .ok ⟨mx', false, [], left⟩ ∧ After o mx raw none mx') ∧
    ∀ raw pes, encode o mx f = .ok (raw, some pes) →
      f.validSp = true ∧ cor o mx n f = .ok (corStore o (begin mx raw pes) n f.sliced) := by
  have hne : ¬ n = 0 := Nat.ne_of_gt hpos
  have hdone : ¬ mx.corOffset < mx.corEnd := Nat.not_lt.mpr h.done
  have hfail : ∀ raw, After o mx raw none { mx with raw := raw, corEnd := 0 } :=
    fun raw => ⟨⟨Nat.zero_le _, h.header⟩, rfl, rfl⟩
  cases hvalid : f.validSp with
  | false =>
    rw [encode, hvalid, cor, if_neg hne, hvalid]
    refine ⟨?_, ?_, ?_⟩
    · rintro e ⟨⟩
    · rintro raw ⟨⟩
      exact ⟨mx, f.sliced, rfl, h, rfl, rfl⟩
    · rintro raw pes ⟨⟩
  | true =>
    have hempty : ¬ f.sliced.isEmpty = true := by rwa [List.isEmpty_iff]
    rw [encode, hvalid, if_pos rfl, cor, if_neg hne, hvalid, if_neg (by decide), if_neg hdone,
      if_neg hempty]
    cases hg : generatePesPacket o mx f with
    | error e =>
      refine ⟨?_, ?_, ?_⟩
      · rintro e' ⟨⟩
        rfl
      · rintro raw ⟨⟩
      · rintro raw pes ⟨⟩
    | ok g =>
      simp only [bind, Except.bind, pure, Except.pure]
      cases g.packet with
      | error e =>
        refine ⟨?_, ?_, ?_⟩
        · rintro e' ⟨⟩
        · rintro raw ⟨⟩
          exact ⟨_, _, rfl, hfail g.raw⟩
        · rintro raw pes ⟨⟩
      | ok p =>
        cases g.rest.isEmpty with
        | true =>
          refine ⟨?_, ?_, ?_⟩
          · rintro e' ⟨⟩
          · rintro raw ⟨⟩
          · rintro raw pes ⟨⟩
            exact ⟨trivial, rfl⟩
        | false =>
          refine ⟨?_, ?_, ?_⟩
          · rintro e' ⟨⟩
          · rintro raw ⟨⟩
            exact ⟨_, _, rfl, hfail g.raw⟩
          · rintro raw pes ⟨⟩

def frameBytes (o : Options) (counter : Nat) (pes : Option (List UInt8)) : List UInt8 :=
  (pes.elim [] (packetsOf o counter)).flatten

def frameLimit : Nat := 188 * (maxPesPacketSize / 184)

theorem frameBytes_length (h : encode o mx f = .ok (raw, some pes)) :
    0 < (packetsOf o mx.continuityCounter pes).flatten.length ∧
      (packetsOf o mx.continuityCounter pes).flatten.length ≤ frameLimit := by
  obtain ⟨hdvd, hpos, hmax⟩ := encode_length h
  have hlimit : frameLimit = 66928 := rfl
  have hsize : maxPesPacketSize = 65504 := rfl
  rw [packetsOf]
  split
  · rw [List.flatten_singleton]
    omega
  · rw [tsPackets_flatten_length _ (by omega : 184 * (pes.length / 184) ≤ pes.length)]
    omega

/-- The calls for one frame: what is stored when it is finished, and when it is. -/
theorem corFrame_spec (h : Idle mx) (hsliced : f.sliced ≠ []) (hsizes : ∀ n ∈ sizes, 0 < n) :
    (∀ e, encode o mx f = .error e → ∀ r, corFrame o f mx sizes = .ok r → r.2.2 = false) ∧
    ∀ raw pes, encode o mx f = .ok (raw, pes) → ∃ mx' bytes finished,
      corFrame o f mx sizes = .ok (mx', bytes, finished) ∧
      (finished = true →
        bytes = frameBytes o mx.continuityCounter pes ∧ After o mx raw pes mx') ∧
      (frameLimit ≤ sizes.sum → finished = true) := by
  cases sizes with
  | nil =>
    refine ⟨?_, ?_⟩
    · rintro e - r ⟨⟩
      rfl
    · intro raw pes _
      exact ⟨mx, [], false, rfl, fun hfalse => absurd hfalse (by decide),
        fun hroom => absurd hroom (by decide)⟩
  | cons n ns =>
    obtain ⟨herror, hnone, hsome⟩ := cor_idle h (hsizes n List.mem_cons_self) hsliced (o := o)
    refine ⟨?_, ?_⟩
    · intro e he r hr
      rw [corFrame, herror e he] at hr
      cases hr
    · intro raw pes hencode
      cases pes with
      | none =>
        obtain ⟨mx', left, hcor, hafter⟩ := hnone raw hencode
        refine ⟨mx', [], true, ?_, fun _ => ⟨rfl, hafter⟩, fun _ => rfl⟩
        rw [corFrame, hcor]
        rfl
      | some pes =>
        obtain ⟨hvalid, hcor⟩ := hsome raw pes hencode
        obtain ⟨hdvd, -, -⟩ := encode_length hencode
        obtain ⟨hpos, hlimit⟩ := frameBytes_length hencode
        have hsus := begin_suspended (o := o) h.header raw hdvd
        have hremaining := begin_remaining (o := o) h.header raw pes
        have hmore : (begin mx raw pes).corOffset < (begin mx raw pes).corEnd := by
          rw [← hremaining] at hpos
          exact Nat.lt_of_not_le fun hend => absurd ((remaining_nil hsus).mpr hend) (by omega)
        have hfirst : corFrame o f mx (n :: ns) = corFrame o f (begin mx raw pes) (n :: ns) := by
          rw [corFrame, corFrame, hcor,
            cor_suspended hmore (hsizes n List.mem_cons_self) hvalid]
        obtain ⟨mx', hloop, hlast⟩ := corFrame_suspended hvalid hsliced hsizes hsus hmore
        rw [hremaining] at hloop hlast
        refine ⟨mx', _, _, hfirst.trans hloop, ?_, ?_⟩
        · intro hroom
          have hroom := of_decide_eq_true hroom
          obtain ⟨hidle, hraw, hcounter⟩ := hlast hroom
          refine ⟨List.take_of_length_le hroom, hidle, hraw, ?_⟩
          rw [hcounter, begin_counter]
          rfl
        · intro hroom
          exact decide_eq_true (hlimit.trans hroom)

structure Matching (mx mx' : State) : Prop where
  left : Idle mx
  right : Idle mx'
  raw : mx.raw = mx'.raw
  counter : mx.continuityCounter = mx'.continuityCounter

theorem After.matching {next next' : State} {pes : Option (List UInt8)} (h : Matching mx mx')
    (ha : After o mx raw pes next) (ha' : After o mx' raw pes next') :
    Matching next next' := by
  refine ⟨ha.idle, ha'.idle, ha.raw.trans ha'.raw.symm, ?_⟩
  rw [ha.counter, ha'.counter, h.counter]

theorem cor_frames {fs : List (FrameData × List Nat)} (hsliced : ∀ x ∈ fs, x.1.sliced ≠ [])
    (hsizes : ∀ x ∈ fs, ∀ n ∈ x.2, 0 < n) (h : Matching mx mx') :
    (∀ bytes, corFrames o mx fs = .ok (bytes, true) → ∃ packets,
      feedFrames o mx' (fs.map Prod.fst) = .ok packets ∧ bytes = packets.flatten) ∧
    ∀ packets, feedFrames o mx' (fs.map Prod.fst) = .ok packets →
      (∀ x ∈ fs, frameLimit ≤ x.2.sum) → ∃ bytes, corFrames o mx fs = .ok (bytes, true) := by
  induction fs generalizing mx mx' with
  | nil =>
    refine ⟨?_, fun _ _ _ => ⟨[], rfl⟩⟩
    rintro bytes ⟨⟩
    exact ⟨[], rfl, rfl⟩
  | cons x fs ih =>
    obtain ⟨f, sizes⟩ := x
    obtain ⟨herror, hok⟩ := corFrame_spec (o := o) h.left (hsliced _ List.mem_cons_self)
      (hsizes _ List.mem_cons_self)
    obtain ⟨hfeedError, hfeedOk⟩ := feed_spec (o := o) h.right f
    have hencode := encode_congr o h.raw f
    rw [List.map_cons, feedFrames]
    cases he : encode o mx f with
    | error e =>
      rw [hfeedError e (hencode ▸ he)]
      refine ⟨?_, ?_⟩
      · intro bytes hbytes
        have hfalse := herror e he
        rw [corFrames] at hbytes
        cases hframe : corFrame o f mx sizes with
        | error e' =>
          rw [hframe] at hbytes
          cases hbytes
        | ok r =>
          obtain ⟨next, stored, finished⟩ := r
          have hunfinished : finished = false := hfalse _ hframe
          rw [hframe, hunfinished] at hbytes
          cases hbytes
      · rintro packets ⟨⟩
    | ok r =>
      obtain ⟨raw, pes⟩ := r
      obtain ⟨next, stored, finished, hframe, hfinished, hroom⟩ := hok raw pes he
      obtain ⟨next', hfeed, hafter'⟩ := hfeedOk raw pes (hencode ▸ he)
      rw [hfeed, corFrames, hframe]
      cases finished with
      | false =>
        refine ⟨?_, ?_⟩
        · rintro bytes ⟨⟩
        · intro packets _ hlimit
          exact absurd (hroom (hlimit _ List.mem_cons_self)) (by decide)
      | true =>
        obtain ⟨hstored, hafter⟩ := hfinished rfl
        obtain ⟨ihBytes, ihRoom⟩ := ih (fun y hy => hsliced y (List.mem_cons_of_mem _ hy))
          (fun y hy => hsizes y (List.mem_cons_of_mem _ hy)) (After.matching h hafter hafter')
        simp only [bind, Except.bind, pure, Except.pure, if_true]
        refine ⟨?_, ?_⟩
        · intro bytes hbytes
          cases hmore : corFrames o next fs with
          | error e =>
            rw [hmore] at hbytes
            cases hbytes
          | ok r =>
            obtain ⟨more, all⟩ := r
            rw [hmore] at hbytes
            cases hbytes
            obtain ⟨packets, hpackets, rfl⟩ := ihBytes more hmore
            rw [hpackets]
            refine ⟨_, rfl, ?_⟩
            rw [hstored, frameBytes, h.counter, List.flatten_append]
        · intro packets hpackets hlimit
          cases hmore : feedFrames o next' (fs.map Prod.fst) with
          | error e =>
            rw [hmore] at hpackets
            cases hpackets
          | ok more =>
            obtain ⟨bytes, hbytes⟩ :=
              ihRoom more hmore (fun y hy => hlimit y (List.mem_cons_of_mem _ hy))
            rw [hbytes]
            exact ⟨_, rfl⟩

theorem muxNew_matching : Matching muxNew muxNew :=
  ⟨⟨Nat.le_refl 0, Nat.le_refl 4⟩, ⟨Nat.le_refl 0, Nat.le_refl 4⟩, rfl, rfl⟩

/-- For frames with at least one sliced line `vbi_dvb_mux_cor()` stores the packets
`vbi_dvb_mux_feed()` passes on, however much room it has in each call. With enough
room it stores all of them. -/
theorem cor_eq_feed (o : Options) (fs : List (FrameData × List Nat))
    (hsliced : ∀ x ∈ fs, x.1.sliced ≠ []) (hsizes : ∀ x ∈ fs, ∀ n ∈ x.2, 0 < n) :
    (∀ bytes, corFrames o muxNew fs = .ok (bytes, true) → ∃ packets,
      feedFrames o muxNew (fs.map Prod.fst) = .ok packets ∧ bytes = packets.flatten) ∧
    ∀ packets, feedFrames o muxNew (fs.map Prod.fst) = .ok packets →
      (∀ x ∈ fs, frameLimit ≤ x.2.sum) → ∃ bytes, corFrames o muxNew fs = .ok (bytes, true) :=
  cor_frames hsliced hsizes muxNew_matching

def smallPackets (pid : Nat) : Options where
  size := setPesPacketSize 0 0
  dataIdentifier := 0x10
  valid := Or.inl (by decide)
  pid := pid

def teletextFrame : FrameData :=
  ⟨[⟨DvbFrame.vbiSlicedTeletextB, 7, List.replicate 42 0⟩], 0xffffffff, none, none, 0⟩

theorem cor_eq_feed_teletext :
    ∃ bytes packets,
      corFrames (smallPackets 0x100) muxNew [(teletextFrame, [7, frameLimit])] =
        .ok (bytes, true) ∧
      feedFrames (smallPackets 0x100) muxNew [teletextFrame] = .ok packets ∧
      bytes = packets.flatten := by
  have hsliced : ∀ x ∈ [(teletextFrame, [7, frameLimit])], x.1.sliced ≠ [] := by
    rw [List.forall_mem_singleton]
    exact List.cons_ne_nil _ _
  have hsizes : ∀ x ∈ [(teletextFrame, [7, frameLimit])], ∀ n ∈ x.2, 0 < n := by
    rw [List.forall_mem_singleton]
    decide
  have hroom : ∀ x ∈ [(teletextFrame, [7, frameLimit])], frameLimit ≤ x.2.sum := by
    rw [List.forall_mem_singleton]
    decide
  have hfeed : ∃ packets, feedFrames (smallPackets 0x100) muxNew [teletextFrame] = .ok packets :=
    ⟨_, rfl⟩
  obtain ⟨packets, hpackets⟩ := hfeed
  obtain ⟨hstored, hall⟩ := cor_eq_feed (smallPackets 0x100) _ hsliced hsizes
  obtain ⟨bytes, hbytes⟩ := hall packets hpackets hroom
  obtain ⟨packets', hpackets', hflatten⟩ := hstored bytes hbytes
  exact ⟨bytes, packets', hbytes, hpackets', hflatten⟩

def emptyFrame : FrameData := ⟨[], 0, none, none, 0⟩

/-- A frame without lines is coded by `vbi_dvb_mux_feed()` only. -/
theorem cor_emptyFrame :
    corFrames (smallPackets 0) muxNew [(emptyFrame, [184])] = .ok ([], true) ∧
      feedFrames (smallPackets 0) muxNew [emptyFrame] =
        .ok [pesPacketHeader 184 0 0x10 ++ (List.replicate 3 (stuffingUnit 46)).flatten] := by
  constructor
  · rfl
  · rfl

end DvbMuxStreams
