import Zvbi.DvbTransport

/-!
# The TS reader from packet to packet

The reader looks at the first ten bytes of a packet, copies or skips the others, and
looks at the next ten bytes. It copies no more than is missing of the PES packet,
and does not skip what is left of the payload then. All other packets take it
to the first byte of the next one, however their bytes arrive.
-/

namespace DvbTsStepping
open DvbFrame DvbDemux DvbPesReader DvbTsReader DvbTransport

/-- Calls which take these bytes, in pieces of any size, with any callback function. What
a call leaves is passed to the next call. -/
inductive Calls : TsDemux → List UInt8 → TsDemux → Prop
  | nil (dx : TsDemux) : Calls dx [] dx
  | call {dx t : TsDemux} (callback : Option Callback) (src more : List UInt8)
      (rest : Calls (demuxTsPacket callback dx src).dx
        ((demuxTsPacket callback dx src).rest ++ more) t) :
      Calls dx (src ++ more) t

inductive Takes : TsDemux → List UInt8 → TsDemux → Prop
  | nil (dx : TsDemux) : Takes dx [] dx
  | copy {dx t : TsDemux} {payload src : List UInt8} (part : payload.length < dx.consume)
      (rest : Takes (consumePayload dx payload) src t) : Takes dx (payload ++ src) t
  | consume {dx t : TsDemux} {payload src : List UInt8} (all : payload.length = dx.consume)
      (rest : Takes (consumeAll dx payload) src t) : Takes dx (payload ++ src) t
  | extract {dx t : TsDemux} {src : List UInt8} (callback : Option Callback)
      (rest : Takes (extractTodo callback dx).1 src t) : Takes dx src t
  | skip {dx t : TsDemux} {bytes src : List UInt8} (consumed : dx.consume = 0)
      (part : bytes.length ≤ dx.skip)
      (rest : Takes { dx with skip := dx.skip - bytes.length } src t) : Takes dx (bytes ++ src) t
  | fill {dx t : TsDemux} {bytes src : List UInt8} (consumed : dx.consume = 0)
      (skipped : dx.skip = 0) (part : bytes.length < dx.lookahead)
      (rest : Takes { dx with
        buffer := dx.buffer ++ bytes
        lookahead := dx.lookahead - bytes.length } src t) : Takes dx (bytes ++ src) t
  | look {dx t : TsDemux} {bytes src : List UInt8} (consumed : dx.consume = 0)
      (skipped : dx.skip = 0) (all : bytes.length = dx.lookahead)
      (rest : Takes (tsLookahead { dx with buffer := dx.buffer ++ bytes }) src t) :
      Takes dx (bytes ++ src) t

variable {dx t : TsDemux} {src p : List UInt8} {k n : Nat}

theorem Takes.trans {u : TsDemux} {xs ys : List UInt8} (h : Takes dx xs t) (k : Takes t ys u) :
    Takes dx (xs ++ ys) u := by
  induction h with
  | nil dx => exact k
  | copy part rest ih =>
    rw [List.append_assoc]
    exact .copy part (ih k)
  | consume all rest ih =>
    rw [List.append_assoc]
    exact .consume all (ih k)
  | extract callback rest ih => exact .extract callback (ih k)
  | skip consumed part rest ih =>
    rw [List.append_assoc]
    exact .skip consumed part (ih k)
  | fill consumed skipped part rest ih =>
    rw [List.append_assoc]
    exact .fill consumed skipped part (ih k)
  | look consumed skipped all rest ih =>
    rw [List.append_assoc]
    exact .look consumed skipped all (ih k)

theorem tsRead_takes (consumed : dx.consume = 0) (src : List UInt8) :
    match tsRead dx src with
    | .error e => Takes dx src e
    | .ok (e, rest) => ∃ taken, src = taken ++ rest ∧ Takes dx taken (tsLookahead e) := by
  rw [tsRead]
  by_cases hskip : src.length < dx.skip
  · rw [if_pos hskip, ← List.append_nil src]
    exact .skip consumed (Nat.le_of_lt hskip) (by simpa using .nil _)
  rw [if_neg hskip]
  dsimp only
  have hlength : (src.take dx.skip).length = dx.skip := List.length_take_of_le (by omega)
  -- the bytes skipped
  have hskipped : ∀ {more : List UInt8} {t : TsDemux}, Takes { dx with skip := 0 } more t →
      Takes dx (src.take dx.skip ++ more) t := by
    intro more t h
    refine .skip consumed (Nat.le_of_eq hlength) ?_
    rw [hlength, Nat.sub_self]
    exact h
  by_cases hfill : (src.drop dx.skip).length < dx.lookahead
  · rw [if_pos hfill]
    dsimp only
    have htakes := hskipped (.fill (by exact consumed) rfl hfill (.nil _))
    rwa [List.append_nil, List.take_append_drop] at htakes
  · rw [if_neg hfill]
    dsimp only
    have hwindow : ((src.drop dx.skip).take dx.lookahead).length = dx.lookahead :=
      List.length_take_of_le (by omega)
    have htakes := hskipped (.look (by exact consumed) rfl hwindow (.nil _))
    refine ⟨_, ?_, htakes⟩
    rw [List.append_nil, List.append_assoc, List.take_append_drop, List.take_append_drop]

theorem tsLoop_takes (callback : Option Callback) (fuel : Nat) (dx : TsDemux) (src : List UInt8) :
    ∃ taken, src = taken ++ (tsLoop callback fuel dx src).rest ∧
      Takes dx taken (tsLoop callback fuel dx src).dx := by
  induction fuel generalizing dx src with
  | zero => exact ⟨[], rfl, .nil dx⟩
  | succ fuel ih =>
    rw [tsLoop]
    by_cases hpart : src.length < dx.consume
    · rw [if_pos hpart]
      refine ⟨src, (List.append_nil src).symm, ?_⟩
      have htakes : Takes dx (src ++ []) (consumePayload dx src) := .copy hpart (.nil _)
      rwa [List.append_nil] at htakes
    rw [if_neg hpart]
    have hlength : (src.take dx.consume).length = dx.consume :=
      List.length_take_of_le (Nat.not_lt.mp hpart)
    -- the payload and the extraction of data units
    have hpayload : ∀ {more : List UInt8} {t : TsDemux},
        Takes (extractTodo callback (consumeAll dx (src.take dx.consume))).1 more t →
        Takes dx (src.take dx.consume ++ more) t :=
      fun h => .consume hlength (.extract callback h)
    have hconsumed :
        (extractTodo callback (consumeAll dx (src.take dx.consume))).1.consume = 0 := by
      rw [((consumeAll_stream dx _).trans (extractTodo_stream callback _)).consume]
      change dx.consume - (src.take dx.consume).length = 0
      omega
    split
    · rename_i e err he
      rw [he] at hpayload
      refine ⟨src.take dx.consume, (List.take_append_drop _ _).symm, ?_⟩
      have htakes := hpayload (.nil e)
      rwa [List.append_nil] at htakes
    · rename_i e he
      rw [he] at hpayload hconsumed
      have hread := tsRead_takes hconsumed (src.drop dx.consume)
      split
      · rename_i u hu
        rw [hu] at hread
        refine ⟨src, (List.append_nil src).symm, ?_⟩
        have htakes := hpayload hread
        rwa [List.take_append_drop] at htakes
      · rename_i u rest hu
        rw [hu] at hread
        obtain ⟨taken, hsplit, hlook⟩ := hread
        obtain ⟨more, hmore, hrest⟩ := ih (tsLookahead u) rest
        refine ⟨src.take dx.consume ++ (taken ++ more), ?_, hpayload (hlook.trans hrest)⟩
        rw [List.append_assoc, List.append_assoc, ← hmore, ← hsplit, List.take_append_drop]

theorem demuxTsPacket_takes (callback : Option Callback) (dx : TsDemux) (src : List UInt8) :
    ∃ taken, src = taken ++ (demuxTsPacket callback dx src).rest ∧
      Takes dx taken (demuxTsPacket callback dx src).dx := by
  rw [demuxTsPacket]
  split
  · rename_i hempty
    exact ⟨[], hempty, .nil dx⟩
  · exact tsLoop_takes callback _ dx src

theorem Calls.single {callback : Option Callback} {dx : TsDemux} {src : List UInt8}
    (h : (demuxTsPacket callback dx src).rest = []) :
    Calls dx src (demuxTsPacket callback dx src).dx := by
  have hcalls := Calls.call callback src [] (by
    rw [h]
    exact .nil (demuxTsPacket callback dx src).dx)
  rwa [List.append_nil] at hcalls

theorem Calls.takes (h : Calls dx src t) : Takes dx src t := by
  induction h with
  | nil dx => exact .nil dx
  | call callback src more rest ih =>
    obtain ⟨taken, hsplit, htakes⟩ := demuxTsPacket_takes callback _ src
    have hall := htakes.trans ih
    rwa [← List.append_assoc, ← hsplit] at hall

/-- The reader took `k` bytes of these and looks next at the ten bytes from the `n`th
on. -/
structure Looks (p : List UInt8) (n k : Nat) (t : TsDemux) : Prop where
  inSync : t.inSync = true
  ahead : k + t.consume + t.skip = n + t.buffer.length
  buffer : t.buffer = (p.take k).drop n
  lookahead_pos : 0 < t.lookahead
  window : t.buffer.length + t.lookahead = tsHeaderLookahead

structure Looked (dx e : TsDemux) : Prop where
  inSync : e.inSync = true
  skip : e.skip = 0
  consume : e.consume = 0
  pesTodo : e.pesTodo = dx.pesTodo - dx.consume
  continuity : e.continuity = dx.continuity
  pid : e.pid = dx.pid

theorem taken_bytes {bytes : List UInt8} (h : bytes ++ src = p.drop k) (hk : k ≤ p.length) :
    k + bytes.length ≤ p.length ∧ src = p.drop (k + bytes.length) ∧
      p.take (k + bytes.length) = p.take k ++ bytes := by
  have hlength := congrArg List.length h
  rw [List.length_append, List.length_drop] at hlength
  refine ⟨by omega, ?_, ?_⟩
  · rw [← List.drop_drop, ← h, List.drop_left]
  · rw [List.take_add, ← h, List.take_left]

theorem Looks.pass (h : Looks p n k dx) (l : Nat) (hl : l ≤ dx.consume + dx.skip)
    (hinSync : t.inSync = dx.inSync) (hbuffer : t.buffer = dx.buffer)
    (hlookahead : t.lookahead = dx.lookahead)
    (hrest : t.consume + t.skip + l = dx.consume + dx.skip) (hk : k + l ≤ p.length) :
    Looks p n (k + l) t := by
  have hlength : dx.buffer.length = k - n := by
    rw [h.buffer, List.length_drop, List.length_take_of_le (by omega)]
  have hahead := h.ahead
  refine ⟨hinSync.trans h.inSync, ?_, ?_, hlookahead ▸ h.lookahead_pos, ?_⟩
  · rw [hbuffer]
    omega
  · rw [hbuffer]
    rcases Nat.eq_zero_or_pos l with rfl | hpos
    · exact h.buffer
    · rw [List.eq_nil_of_length_eq_zero (show dx.buffer.length = 0 by omega),
        List.drop_of_length_le]
      rw [List.length_take_of_le hk]
      omega
  · rw [hbuffer, hlookahead]
    exact h.window

/-- All bytes pass without the reader looking at its window, or it looks there. -/
theorem Looks.takes (h : Looks p n k dx) (hk : k ≤ p.length) (hsrc : src = p.drop k)
    (htakes : Takes dx src t) :
    Looks p n p.length t ∨ (n + tsHeaderLookahead ≤ p.length ∧ ∃ e, Looked dx e ∧
      e.buffer = (p.drop n).take tsHeaderLookahead ∧
      Takes (tsLookahead e) (p.drop (n + tsHeaderLookahead)) t) := by
  induction htakes generalizing k with
  | nil dx =>
    have hend : k = p.length := by
      have hlength := congrArg List.length hsrc
      rw [List.length_nil, List.length_drop] at hlength
      omega
    exact Or.inl (hend ▸ h)
  | @copy dx t payload src part rest ih =>
    obtain ⟨hk', hsrc', -⟩ := taken_bytes hsrc hk
    have hpass : Looks p n (k + payload.length) (consumePayload dx payload) := by
      refine h.pass payload.length (by omega) rfl rfl rfl ?_ hk'
      change dx.consume - payload.length + dx.skip + payload.length = _
      omega
    refine (ih hpass hk' hsrc').imp_right fun ⟨hroom, e, he, hlook⟩ =>
      ⟨hroom, e, ⟨he.inSync, he.skip, he.consume, ?_, he.continuity, he.pid⟩, hlook⟩
    rw [he.pesTodo]
    change dx.pesTodo - payload.length - (dx.consume - payload.length) = _
    omega
  | @consume dx t payload src all rest ih =>
    obtain ⟨hk', hsrc', -⟩ := taken_bytes hsrc hk
    have hstream := consumeAll_stream dx payload
    have hconsumed : (consumeAll dx payload).consume = 0 := by
      rw [hstream.consume]
      change dx.consume - payload.length = 0
      omega
    have hskip : (consumeAll dx payload).skip = dx.skip := hstream.skip
    have hpass : Looks p n (k + payload.length) (consumeAll dx payload) :=
      h.pass payload.length (by omega) hstream.inSync hstream.buffer hstream.lookahead
        (by omega) hk'
    refine (ih hpass hk' hsrc').imp_right fun ⟨hroom, e, he, hlook⟩ =>
      ⟨hroom, e, ⟨he.inSync, he.skip, he.consume, ?_, he.continuity.trans hstream.continuity,
        he.pid.trans hstream.pid⟩, hlook⟩
    rw [he.pesTodo, hconsumed, hstream.pesTodo]
    change dx.pesTodo - payload.length - 0 = _
    omega
  | @extract dx t src callback rest ih =>
    have hstream := extractTodo_stream callback dx
    have hpass : Looks p n k (extractTodo callback dx).1 := by
      refine h.pass 0 (Nat.zero_le _) hstream.inSync hstream.buffer hstream.lookahead ?_ hk
      rw [hstream.consume, hstream.skip]
      rfl
    refine (ih hpass hk hsrc).imp_right fun ⟨hroom, e, he, hlook⟩ =>
      ⟨hroom, e, ⟨he.inSync, he.skip, he.consume, ?_, he.continuity.trans hstream.continuity,
        he.pid.trans hstream.pid⟩, hlook⟩
    rw [he.pesTodo, hstream.pesTodo, hstream.consume]
  | @skip dx t bytes src consumed part rest ih =>
    obtain ⟨hk', hsrc', -⟩ := taken_bytes hsrc hk
    have hpass : Looks p n (k + bytes.length) { dx with skip := dx.skip - bytes.length } := by
      refine h.pass bytes.length (by omega) rfl rfl rfl ?_ hk'
      dsimp only
      omega
    exact (ih hpass hk' hsrc').imp_right fun ⟨hroom, e, he, hlook⟩ =>
      ⟨hroom, e, ⟨he.inSync, he.skip, he.consume, he.pesTodo, he.continuity, he.pid⟩, hlook⟩
  | @fill dx t bytes src consumed skipped part rest ih =>
    obtain ⟨hk', hsrc', htake⟩ := taken_bytes hsrc hk
    have hahead := h.ahead
    have hwindow := h.window
    have hpass : Looks p n (k + bytes.length) { dx with
        buffer := dx.buffer ++ bytes
        lookahead := dx.lookahead - bytes.length } := by
      refine ⟨h.inSync, ?_, ?_, ?_, ?_⟩
      · dsimp only
        rw [List.length_append]
        omega
      · dsimp only
        rw [htake, List.drop_append_of_le_length, ← h.buffer]
        rw [List.length_take_of_le hk]
        omega
      · dsimp only
        omega
      · dsimp only
        rw [List.length_append]
        omega
    exact (ih hpass hk' hsrc').imp_right fun ⟨hroom, e, he, hlook⟩ =>
      ⟨hroom, e, ⟨he.inSync, he.skip, he.consume, he.pesTodo, he.continuity, he.pid⟩, hlook⟩
  | @look dx t bytes src consumed skipped all rest ih =>
    obtain ⟨hk', hsrc', htake⟩ := taken_bytes hsrc hk
    have hahead := h.ahead
    have hwindow := h.window
    have hend : k + bytes.length = n + tsHeaderLookahead := by omega
    rw [hend] at hk' hsrc' htake
    refine Or.inr ⟨hk', { dx with buffer := dx.buffer ++ bytes },
      ⟨h.inSync, skipped, consumed, ?_, rfl, rfl⟩, ?_, hsrc' ▸ rest⟩
    · dsimp only
      omega
    · dsimp only
      rw [h.buffer, ← List.drop_append_of_le_length, ← htake, List.drop_take,
        Nat.add_sub_cancel_left]
      rw [List.length_take_of_le hk]
      omega

/-- Until it took the bytes of its search, the reader does not find a packet. -/
theorem Takes.lost (h : Takes dx src t) (hinSync : dx.inSync = false) (hconsume : dx.consume = 0)
    (hskip : dx.skip = 0) (hlength : src.length < dx.lookahead) : t.inSync = false := by
  induction h with
  | nil dx => exact hinSync
  | copy part rest ih => omega
  | @consume dx t payload src all rest ih =>
    have hstream := consumeAll_stream dx payload
    have hempty : payload = [] := List.eq_nil_of_length_eq_zero (by omega)
    subst hempty
    refine ih (hstream.inSync.trans hinSync) ?_ (hstream.skip.trans hskip) ?_
    · rw [hstream.consume]
      exact hconsume
    · rw [hstream.lookahead]
      exact hlength
  | @extract dx t src callback rest ih =>
    have hstream := extractTodo_stream callback dx
    refine ih (hstream.inSync.trans hinSync) (hstream.consume.trans hconsume)
      (hstream.skip.trans hskip) ?_
    rw [hstream.lookahead]
    exact hlength
  | skip consumed part rest ih =>
    rw [List.length_append] at hlength
    refine ih hinSync consumed ?_ (by dsimp only; omega)
    dsimp only
    omega
  | fill consumed skipped part rest ih =>
    rw [List.length_append] at hlength
    exact ih hinSync consumed skipped (by dsimp only; omega)
  | look consumed skipped all rest ih =>
    rw [List.length_append] at hlength
    omega

/-- The PES packet on its way ends within the payload of this packet, which is next in
turn and no PES packet starts in it. -/
structure EndsWithin (dx : TsDemux) (p : List UInt8) : Prop where
  error : (byte p 1).toNat.testBit 7 = false
  pid : tsPid p = dx.pid
  clear : byte p 3 &&& 0xc0 = 0
  payloadOnly : byte p 3 &&& 0x30 = 0x10
  counter : dx.continuity < 0 ∨ dx.continuity % 16 = ((byte p 3).toNat : Int) % 16
  noStart : (byte p 1).toNat.testBit 6 = false
  begun : 0 < dx.pesTodo
  ends : dx.pesTodo < 184

instance (dx : TsDemux) (p : List UInt8) : Decidable (EndsWithin dx p) :=
  decidable_of_iff ((byte p 1).toNat.testBit 7 = false ∧ tsPid p = dx.pid ∧
      byte p 3 &&& 0xc0 = 0 ∧ byte p 3 &&& 0x30 = 0x10 ∧
      (dx.continuity < 0 ∨ dx.continuity % 16 = ((byte p 3).toNat : Int) % 16) ∧
      (byte p 1).toNat.testBit 6 = false ∧ 0 < dx.pesTodo ∧ dx.pesTodo < 184)
    ⟨fun ⟨h1, h2, h3, h4, h5, h6, h7, h8⟩ => ⟨h1, h2, h3, h4, h5, h6, h7, h8⟩,
      fun ⟨h1, h2, h3, h4, h5, h6, h7, h8⟩ => ⟨h1, h2, h3, h4, h5, h6, h7, h8⟩⟩

structure Leaves (dx t : TsDemux) (ahead : Nat) : Prop where
  inSync : t.inSync = dx.inSync
  buffer : t.buffer = []
  lookahead : t.lookahead = tsHeaderLookahead
  ahead : t.consume + t.skip = ahead

theorem skipTsPacket_leaves {dx : TsDemux} {p : List UInt8} (hlength : p.length = 10)
    (hconsume : dx.consume = 0) : Leaves dx (skipTsPacket dx p) 178 := by
  rw [skipTsPacket, if_pos (by omega), hlength]
  exact ⟨rfl, rfl, rfl, by dsimp only; omega⟩

theorem skipTsPesPacket_leaves (dx : TsDemux) (hlength : p.length = 10) :
    Leaves dx (skipTsPesPacket dx p) 178 := by
  obtain ⟨hinSync, hbuffer, hlookahead, hahead⟩ := @skipTsPacket_leaves { dx with
    decoder := discardFrame dx.decoder
    pesTodo := 0
    consume := 0 } p hlength rfl
  exact ⟨hinSync, hbuffer, hlookahead, hahead⟩

/-- Six bytes of the payload were in the buffer. -/
theorem copyFragment_leaves {dx : TsDemux} {p : List UInt8} (hlength : p.length = 10)
    (hskip : dx.skip = 0) :
    Leaves dx (copyFragment dx p) (min dx.pesTodo 184 - 6) ∧ (copyFragment dx p).skip = 0 ∧
      (copyFragment dx p).pesTodo = dx.pesTodo - 6 := by
  rw [copyFragment, if_pos (by omega), hlength]
  refine ⟨⟨rfl, rfl, rfl, ?_⟩, hskip, ?_⟩
  · dsimp only
    omega
  · dsimp only
    omega

/-- All branches but one take the reader to the next packet. -/
theorem tsHeader_leaves (hlength : p.length = 10) (hskip : dx.skip = 0) (hconsume : dx.consume = 0)
    (h : ¬ EndsWithin dx p) : Leaves dx (tsHeader dx p) 178 := by
  have hpacket := skipTsPacket_leaves hlength hconsume
  have hpes := skipTsPesPacket_leaves dx hlength
  have hcount := skipTsPesPacket_leaves (dx.count p) hlength
  rw [tsHeader]
  by_cases herror : (byte p 1).toNat.testBit 7 = true
  · rw [if_pos herror]
    exact hpes
  rw [if_neg herror]
  by_cases hpid : tsPid p = dx.pid
  swap
  · rw [if_pos hpid]
    exact hpacket
  rw [if_neg (not_not.mpr hpid)]
  by_cases hclear : byte p 3 &&& 0xc0 = 0
  swap
  · rw [if_pos hclear]
    exact hpes
  rw [if_neg (not_not.mpr hclear)]
  by_cases hpayload : byte p 3 &&& 0x30 = 0x10
  swap
  · rw [if_neg hpayload]
    split
    · exact hpacket
    · exact hpes
  rw [if_pos hpayload, tsContinuity]
  by_cases hcounter : 0 ≤ dx.continuity ∧ dx.continuity % 16 ≠ ((byte p 3).toNat : Int) % 16
  · rw [if_pos hcounter]
    split
    · exact hpacket
    · exact ⟨hcount.inSync, hcount.buffer, hcount.lookahead, hcount.ahead⟩
  rw [if_neg hcounter, tsPayload]
  change Leaves dx (if dx.pesTodo = 0 then _ else _) 178
  by_cases hbegun : dx.pesTodo = 0
  · rw [if_pos hbegun]
    split
    · exact ⟨hcount.inSync, hcount.buffer, hcount.lookahead, hcount.ahead⟩
    split
    · exact ⟨hcount.inSync, hcount.buffer, hcount.lookahead, hcount.ahead⟩
    rename_i hsize
    obtain ⟨hcopied, -, -⟩ := @copyFragment_leaves
      ((dx.count p).startPes (packetLength (p.drop 4) + 6)) p hlength hskip
    refine ⟨hcopied.inSync, hcopied.buffer, hcopied.lookahead, hcopied.ahead.trans ?_⟩
    change min (packetLength (p.drop 4) + 6) 184 - 6 = 178
    omega
  rw [if_neg hbegun]
  by_cases hstart : (byte p 1).toNat.testBit 6 = true
  · rw [if_pos hstart]
    exact ⟨hcount.inSync, hcount.buffer, hcount.lookahead, hcount.ahead⟩
  rw [if_neg hstart]
  have hmany : 184 ≤ dx.pesTodo := by
    by_contra hfew
    refine h ⟨by simpa using herror, hpid, hclear, hpayload, ?_, by simpa using hstart,
      Nat.pos_of_ne_zero hbegun, by omega⟩
    by_contra hturn
    exact hcounter ⟨by omega, fun hmod => hturn (Or.inr hmod)⟩
  obtain ⟨hcopied, -, -⟩ := @copyFragment_leaves (dx.count p) p hlength hskip
  refine ⟨hcopied.inSync, hcopied.buffer, hcopied.lookahead, hcopied.ahead.trans ?_⟩
  change min dx.pesTodo 184 - 6 = 178
  omega

/-- The other one takes it behind the PES packet. -/
theorem tsHeader_ends (hlength : p.length = 10) (hskip : dx.skip = 0) (h : EndsWithin dx p) :
    Leaves dx (tsHeader dx p) (dx.pesTodo - 6) ∧ (tsHeader dx p).skip = 0 ∧
      (tsHeader dx p).pesTodo = dx.pesTodo - 6 := by
  have hcounter : ¬ (0 ≤ dx.continuity ∧
      dx.continuity % 16 ≠ ((byte p 3).toNat : Int) % 16) := by
    rintro ⟨hknown, hother⟩
    exact h.counter.elim (fun hneg => by omega) hother
  have hbegun := h.begun
  have hends := h.ends
  have hheader : tsHeader dx p = copyFragment (dx.count p) p := by
    rw [tsHeader, if_neg (by rw [h.error]; exact Bool.false_ne_true),
      if_neg (not_not.mpr h.pid), if_neg (not_not.mpr h.clear), if_pos h.payloadOnly,
      tsContinuity, if_neg hcounter, tsPayload]
    change (if dx.pesTodo = 0 then _ else _) = _
    rw [if_neg (by omega), if_neg (by rw [h.noStart]; exact Bool.false_ne_true)]
  obtain ⟨hcopied, hcopiedSkip, hcopiedTodo⟩ := @copyFragment_leaves (dx.count p) p hlength hskip
  rw [hheader]
  refine ⟨⟨hcopied.inSync, hcopied.buffer, hcopied.lookahead, hcopied.ahead.trans ?_⟩,
    hcopiedSkip, hcopiedTodo⟩
  change min dx.pesTodo 184 - 6 = _
  omega

/-- The reader is in sync and the next packet is looked at next. Bytes of it may be in
the buffer. -/
structure AtPacket (dx : TsDemux) : Prop where
  inSync : dx.inSync = true
  skip : dx.skip = 0
  consume : dx.consume = 0
  lookahead_pos : 0 < dx.lookahead
  window : dx.buffer.length + dx.lookahead = tsHeaderLookahead

/-- The reader is in sync and took all bytes of a packet and no other. -/
structure InStep (t : TsDemux) : Prop where
  inSync : t.inSync = true
  skip : t.skip = 0
  consume : t.consume = 0
  buffer : t.buffer = []
  lookahead : t.lookahead = tsHeaderLookahead

theorem Leaves.looks {ahead : Nat} (h : Leaves dx t ahead) (hinSync : dx.inSync = true)
    (hk : k ≤ p.length) : Looks p (k + ahead) k t := by
  refine ⟨h.inSync.trans hinSync, ?_, ?_, ?_, ?_⟩
  · rw [h.buffer, List.length_nil, ← h.ahead]
    omega
  · rw [h.buffer, List.drop_of_length_le]
    rw [List.length_take_of_le hk]
    omega
  · rw [h.lookahead]
    exact Nat.succ_pos 9
  · rw [h.buffer, h.lookahead]
    rfl

theorem Looks.inStep_iff (h : Looks p n p.length t) : InStep t ↔ n = p.length := by
  have hlength : t.buffer.length = p.length - n := by
    rw [h.buffer, List.length_drop, List.take_length]
  have hahead := h.ahead
  constructor
  · intro hstep
    rw [hstep.skip, hstep.consume, hstep.buffer, List.length_nil] at hahead
    exact hahead.symm
  · intro hn
    have hnil : t.buffer = [] := List.eq_nil_of_length_eq_zero (by omega)
    have hwindow := h.window
    rw [hnil, List.length_nil, Nat.zero_add] at hwindow
    exact ⟨h.inSync, by omega, by omega, hnil, hwindow⟩

theorem AtPacket.looks (h : AtPacket dx) (hbuffer : p.take dx.buffer.length = dx.buffer) :
    Looks p 0 dx.buffer.length dx := by
  refine ⟨h.inSync, ?_, hbuffer.symm, h.lookahead_pos, h.window⟩
  rw [h.consume, h.skip]
  omega

/-- The header decides where the reader looks next. -/
theorem Looked.endsWithin_iff {e : TsDemux} (h : Looked dx e) (hconsume : dx.consume = 0)
    (p : List UInt8) : EndsWithin e p ↔ EndsWithin dx p := by
  have htodo := h.pesTodo
  rw [hconsume, Nat.sub_zero] at htodo
  constructor
  · rintro ⟨h1, h2, h3, h4, h5, h6, h7, h8⟩
    rw [h.pid] at h2
    rw [h.continuity] at h5
    rw [htodo] at h7 h8
    exact ⟨h1, h2, h3, h4, h5, h6, h7, h8⟩
  · rintro ⟨h1, h2, h3, h4, h5, h6, h7, h8⟩
    rw [← h.pid] at h2
    rw [← h.continuity] at h5
    rw [← htodo] at h7 h8
    exact ⟨h1, h2, h3, h4, h5, h6, h7, h8⟩

/-- Which packets these are can be seen in the first ten bytes. -/
theorem endsWithin_header (dx : TsDemux) (p : List UInt8) :
    EndsWithin dx (p.take tsHeaderLookahead) ↔ EndsWithin dx p := by
  have h1 : byte (p.take tsHeaderLookahead) 1 = byte p 1 := byte_take (by decide)
  have h2 : byte (p.take tsHeaderLookahead) 2 = byte p 2 := byte_take (by decide)
  have h3 : byte (p.take tsHeaderLookahead) 3 = byte p 3 := byte_take (by decide)
  have hpid : tsPid (p.take tsHeaderLookahead) = tsPid p := by rw [tsPid, tsPid, h1, h2]
  constructor
  · rintro ⟨herror, hpid', hclear, hpayload, hcounter, hstart, hbegun, hends⟩
    rw [h1] at herror hstart
    rw [hpid] at hpid'
    rw [h3] at hclear hpayload hcounter
    exact ⟨herror, hpid', hclear, hpayload, hcounter, hstart, hbegun, hends⟩
  · rintro ⟨herror, hpid', hclear, hpayload, hcounter, hstart, hbegun, hends⟩
    rw [← h1] at herror hstart
    rw [← hpid] at hpid'
    rw [← h3] at hclear hpayload hcounter
    exact ⟨herror, hpid', hclear, hpayload, hcounter, hstart, hbegun, hends⟩

/-- Behind the PES packet the reader looks at a window within the payload, which it takes for
a header or not. -/
theorem Looks.out_of_step (hp : p.length = 188) (h : Looks p n k dx) (hk : k ≤ p.length)
    (hn : 10 ≤ n) (hlt : n < p.length) (htodo : dx.pesTodo = dx.consume)
    (htakes : Takes dx (p.drop k) t) : ¬ InStep t := by
  have hten : tsHeaderLookahead = 10 := rfl
  rcases h.takes hk rfl htakes with hend | ⟨hroom, e, he, hbuffer, hlook⟩
  · rw [hend.inStep_iff]
    omega
  have hlength : e.buffer.length = 10 := by
    rw [hbuffer, List.length_take_of_le]
    · rfl
    · rw [List.length_drop]
      omega
  have htodo' : e.pesTodo = 0 := by
    rw [he.pesTodo]
    omega
  rw [tsLookahead, if_pos he.inSync] at hlook
  split at hlook
  · -- no sync byte
    intro hstep
    have hlost := hlook.lost rfl rfl he.skip (by
      rw [List.length_drop]
      change _ < tsSyncSearchLookahead - _
      unfold tsSyncSearchLookahead
      omega)
    rw [hstep.inSync] at hlost
    cases hlost
  · -- the window passes for a header
    have hnot : ¬ EndsWithin e e.buffer := fun h => by
      have hbegun := h.begun
      omega
    have hleaves := tsHeader_leaves hlength he.skip he.consume hnot
    have hnext := hleaves.looks he.inSync hroom
    rcases hnext.takes hroom rfl hlook with hend | ⟨hroom', -⟩
    · rw [hend.inStep_iff]
      change n + 10 + 178 ≠ _
      omega
    · omega

/-- From the begin of a packet the reader takes its 188 bytes and looks at the next header then,
in however many calls, unless the PES packet on its way ends within the payload. -/
theorem packet_stepping {dx t : TsDemux} (h : AtPacket dx) (p : TsPacket)
    (hbuffer : p.bytes.take dx.buffer.length = dx.buffer)
    (calls : Calls dx (p.bytes.drop dx.buffer.length) t) :
    InStep t ↔ ¬ EndsWithin dx p.bytes := by
  have hp := p.length_eq
  have hten : tsHeaderLookahead = 10 := rfl
  have hwindow := h.window
  have hpos := h.lookahead_pos
  have hk : dx.buffer.length ≤ p.bytes.length := by omega
  have hlooks := h.looks hbuffer
  rcases hlooks.takes hk rfl calls.takes with hend | ⟨hroom, e, he, hheader, hlook⟩
  · -- there are more bytes than are looked at
    have hall := congrArg List.length hend.buffer
    rw [List.take_length, List.drop_zero] at hall
    have hwindow' := hend.window
    omega
  rw [List.drop_zero] at hheader
  have hlength : e.buffer.length = 10 := by
    rw [hheader, List.length_take_of_le]
    · rfl
    · omega
  have hsync : byte e.buffer 0 = 0x47 := by
    rw [hheader, byte_take (by decide)]
    exact p.sync
  rw [tsLookahead, if_pos he.inSync, if_neg (not_not.mpr hsync)] at hlook
  have hends : EndsWithin e e.buffer ↔ EndsWithin dx p.bytes := by
    rw [hheader, endsWithin_header, he.endsWithin_iff h.consume]
  rw [← hends]
  by_cases hwithin : EndsWithin e e.buffer
  · refine iff_of_false ?_ (not_not.mpr hwithin)
    obtain ⟨hleaves, hskip, htodo⟩ := tsHeader_ends hlength he.skip hwithin
    have hnext := hleaves.looks he.inSync hroom
    have hsmall := hwithin.ends
    have hahead := hleaves.ahead
    refine hnext.out_of_step hp hroom ?_ ?_ ?_ hlook
    · change 10 ≤ 0 + 10 + _
      omega
    · change 0 + 10 + _ < _
      omega
    · omega
  · refine iff_of_true ?_ hwithin
    have hleaves := tsHeader_leaves hlength he.skip he.consume hwithin
    have hnext := hleaves.looks he.inSync hroom
    rcases hnext.takes hroom rfl hlook with hend | ⟨hroom', -⟩
    · rw [hend.inStep_iff]
      change 0 + 10 + 178 = _
      omega
    · change 0 + 10 + 178 + 10 ≤ _ at hroom'
      omega

/-- A packet of another stream. -/
theorem packet_stepping_null : InStep (demuxTsPacket none (synced 256) nullPacket.bytes).dx :=
  (packet_stepping ⟨rfl, rfl, rfl, by decide, rfl⟩ nullPacket rfl
    (Calls.single (by decide +kernel))).mpr (by decide +kernel)

def oddTs : TsPacket where
  bytes := [0x47, 0x41, 0x00, 0x10, 0x00, 0x00, 0x01, 0xbd, 0x00, 0xb3] ++
    List.replicate 178 0xff
  length_eq := by decide +kernel
  sync := rfl

def lastTs : TsPacket where
  bytes := [0x47, 0x01, 0x00, 0x11] ++ List.replicate 184 0xff
  length_eq := by decide +kernel
  sync := rfl

/-- Synchronisation is lost though all packets start with the sync byte. -/
theorem packet_stepping_fails : ∃ (dx t : TsDemux) (p : TsPacket),
    Calls (tsDemuxNew 256) (nullPacket.bytes ++ oddTs.bytes) dx ∧ AtPacket dx ∧
      p.bytes.take dx.buffer.length = dx.buffer ∧
      Calls dx (p.bytes.drop dx.buffer.length) t ∧ ¬ InStep t ∧ t.inSync = false := by
  have hlost : (demuxTsPacket none
      (demuxTsPacket none (tsDemuxNew 256) (nullPacket.bytes ++ oddTs.bytes)).dx
      lastTs.bytes).dx.inSync = false := by
    decide +kernel
  have hbuffer : (demuxTsPacket none (tsDemuxNew 256)
      (nullPacket.bytes ++ oddTs.bytes)).dx.buffer = [] := by
    decide +kernel
  refine ⟨_, _, lastTs, @Calls.single none _ _ (by decide +kernel), ?_, ?_, ?_, ?_, hlost⟩
  · constructor <;> decide +kernel
  · rw [hbuffer]
    rfl
  · rw [hbuffer]
    exact Calls.single (by decide +kernel)
  · intro h
    rw [h.inSync] at hlost
    cases hlost

end DvbTsStepping
