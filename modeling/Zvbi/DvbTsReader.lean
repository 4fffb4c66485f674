import Zvbi.DvbPesReader

/-!
# What the TS reader reads

With a callback function which always succeeds the TS reader may as well take one
byte at a time. It copies the payload it has to consume, then skips bytes, then
collects the lookahead bytes, and it acts when the last byte of these arrives.
-/

namespace DvbTsReader
open DvbFrame DvbDemux DvbPesReader

def tsExtract (dx : TsDemux) : TsDemux := (extractTodo (some always) dx).1

def tsByte (dx : TsDemux) (b : UInt8) : TsDemux :=
  if 0 < dx.consume then
    if dx.consume = 1 then tsExtract (consumeAll dx [b]) else consumePayload dx [b]
  else if 0 < dx.skip then
    { dx with skip := dx.skip - 1 }
  else if dx.lookahead ≤ 1 then
    tsLookahead { dx with
      buffer := dx.buffer ++ [b]
      lookahead := 0 }
  else
    { dx with
      buffer := dx.buffer ++ [b]
      lookahead := dx.lookahead - 1 }

def tsBytes (dx : TsDemux) (src : List UInt8) : TsDemux := src.foldl tsByte dx

/-- Between two bytes no data unit waits for its extraction, and the bytes in the
buffer and those missing make up what is to be looked at. -/
structure Ready (dx : TsDemux) : Prop where
  frameTodo : dx.frameTodo = []
  lookahead_pos : 0 < dx.lookahead
  window : dx.buffer.length + dx.lookahead =
    if dx.inSync then tsHeaderLookahead else tsSyncSearchLookahead

@[simp] theorem tsBytes_nil (dx : TsDemux) : tsBytes dx [] = dx := rfl

theorem tsBytes_cons (dx : TsDemux) (b : UInt8) (src : List UInt8) :
    tsBytes dx (b :: src) = tsBytes (tsByte dx b) src := rfl

theorem tsBytes_append (dx : TsDemux) (xs ys : List UInt8) :
    tsBytes dx (xs ++ ys) = tsBytes (tsBytes dx xs) ys := List.foldl_append

theorem consumePayload_append (dx : TsDemux) (xs ys : List UInt8) :
    consumePayload (consumePayload dx xs) ys = consumePayload dx (xs ++ ys) := by
  simp only [consumePayload, List.append_assoc, List.length_append, Nat.sub_sub]

theorem consumePayload_nil (dx : TsDemux) : consumePayload dx [] = dx := by
  simp only [consumePayload, List.append_nil, List.length_nil, Nat.sub_zero]

variable {dx : TsDemux} {src p : List UInt8}

theorem tsBytes_consume_part (h : src.length < dx.consume) :
    tsBytes dx src = consumePayload dx src := by
  induction src generalizing dx with
  | nil => exact (consumePayload_nil dx).symm
  | cons b src ih =>
    rw [List.length_cons] at h
    have hbyte : tsByte dx b = consumePayload dx [b] := by
      rw [tsByte, if_pos (by omega), if_neg (by omega)]
    rw [tsBytes_cons, hbyte, ih, consumePayload_append, List.singleton_append]
    change src.length < dx.consume - 1
    omega

/-- A packet is complete or not, however its last bytes arrived. -/
theorem consumeAll_append {xs ys : List UInt8} (h : xs.length < dx.consume) :
    consumeAll (consumePayload dx xs) ys = consumeAll dx (xs ++ ys) := by
  have hpos : 0 < (consumePayload dx xs).consume ↔ 0 < dx.consume := by
    change 0 < dx.consume - xs.length ↔ _
    omega
  simp only [consumeAll, consumePayload_append, hpos]

theorem tsBytes_consume (h : src.length = dx.consume) (hpos : 0 < dx.consume) :
    tsBytes dx src = tsExtract (consumeAll dx src) := by
  obtain ⟨init, b, rfl⟩ : ∃ init b, src = init ++ [b] := by
    have hne : src ≠ [] := List.ne_nil_of_length_pos (by omega)
    exact ⟨_, _, (List.dropLast_concat_getLast hne).symm⟩
  rw [List.length_append, List.length_singleton] at h
  have hpart : init.length < dx.consume := by omega
  have hconsume : (consumePayload dx init).consume = 1 := by
    change dx.consume - init.length = 1
    omega
  rw [tsBytes_append, tsBytes_consume_part hpart, tsBytes_cons, tsBytes_nil, tsByte,
    if_pos (by omega), if_pos hconsume, consumeAll_append hpart]

theorem tsBytes_skip (hconsume : dx.consume = 0) (h : src.length ≤ dx.skip) :
    tsBytes dx src = { dx with skip := dx.skip - src.length } := by
  induction src generalizing dx with
  | nil => rfl
  | cons b src ih =>
    rw [List.length_cons] at h
    have hbyte : tsByte dx b = { dx with skip := dx.skip - 1 } := by
      rw [tsByte, if_neg (by omega), if_pos (by omega)]
    have hrest : src.length ≤ dx.skip - 1 := by omega
    rw [tsBytes_cons, hbyte, @ih { dx with skip := dx.skip - 1 } hconsume hrest, List.length_cons]
    dsimp only
    rw [Nat.sub_sub, Nat.add_comm 1]

theorem tsBytes_buffer (hconsume : dx.consume = 0) (hskip : dx.skip = 0)
    (h : src.length < dx.lookahead) :
    tsBytes dx src = { dx with
      buffer := dx.buffer ++ src
      lookahead := dx.lookahead - src.length } := by
  induction src generalizing dx with
  | nil => simp only [tsBytes_nil, List.append_nil, List.length_nil, Nat.sub_zero]
  | cons b src ih =>
    rw [List.length_cons] at h
    have hbyte : tsByte dx b = { dx with
        buffer := dx.buffer ++ [b]
        lookahead := dx.lookahead - 1 } := by
      rw [tsByte, if_neg (by omega), if_neg (by omega), if_neg (by omega)]
    have hrest : src.length < dx.lookahead - 1 := by omega
    rw [tsBytes_cons, hbyte, @ih { dx with
      buffer := dx.buffer ++ [b]
      lookahead := dx.lookahead - 1 } hconsume hskip hrest, List.length_cons]
    dsimp only
    rw [Nat.sub_sub, Nat.add_comm 1, List.append_assoc, List.singleton_append]

/-- What was the lookahead does not matter once the bytes are there. -/
theorem tsLookahead_lookahead (dx : TsDemux) (n : Nat) :
    tsLookahead { dx with lookahead := n } = tsLookahead dx := by
  rw [tsLookahead, tsLookahead]
  dsimp only
  split
  · rfl
  · split <;> rfl

theorem tsBytes_lookahead {dx : TsDemux} {src : List UInt8} (hconsume : dx.consume = 0)
    (hskip : dx.skip = 0) (hpos : 0 < dx.lookahead) (h : src.length = dx.lookahead) :
    tsBytes dx src = tsLookahead { dx with buffer := dx.buffer ++ src } := by
  obtain ⟨init, b, rfl⟩ : ∃ init b, src = init ++ [b] := by
    have hne : src ≠ [] := List.ne_nil_of_length_pos (by omega)
    exact ⟨_, _, (List.dropLast_concat_getLast hne).symm⟩
  rw [List.length_append, List.length_singleton] at h
  rw [tsBytes_append, tsBytes_buffer hconsume hskip (by omega), tsBytes_cons, tsBytes_nil, tsByte,
    if_neg (by dsimp only; omega), if_neg (by dsimp only; omega), if_pos (by dsimp only; omega)]
  dsimp only
  rw [List.append_assoc]
  exact tsLookahead_lookahead { dx with buffer := dx.buffer ++ (init ++ [b]) } 0

theorem tsExtract_frameTodo (dx : TsDemux) : (tsExtract dx).frameTodo = [] := by
  rw [tsExtract, extractTodo]
  split
  · assumption
  · dsimp only
    rw [if_neg (demuxPesPacketFrame_always _ _)]
    split
    · rfl
    · rename_i hzero
      apply demuxPesPacketFrame_rest
      cases herr : (demuxPesPacketFrame (some always) dx.decoder dx.frameTodo).err with
      | none => rfl
      | some err =>
        rw [herr] at hzero
        cases err <;> exact absurd (by decide) hzero

/-- With nothing to extract this phase does nothing. -/
theorem extractTodo_always (dx : TsDemux) :
    extractTodo (some always) dx = (tsExtract dx, none) := by
  rw [tsExtract, extractTodo]
  split
  · rfl
  · dsimp only
    rw [if_neg (demuxPesPacketFrame_always _ _)]
    split <;> rfl

theorem tsExtract_nothing (h : dx.frameTodo = []) : tsExtract dx = dx := by
  rw [tsExtract, extractTodo, if_pos h]

structure SameStream (dx t : TsDemux) : Prop where
  skip : t.skip = dx.skip
  consume : t.consume = dx.consume
  lookahead : t.lookahead = dx.lookahead
  buffer : t.buffer = dx.buffer
  inSync : t.inSync = dx.inSync
  pes : t.pes = dx.pes
  pesTodo : t.pesTodo = dx.pesTodo
  continuity : t.continuity = dx.continuity
  pid : t.pid = dx.pid

theorem extractTodo_stream (callback : Option Callback) (dx : TsDemux) :
    SameStream dx (extractTodo callback dx).1 := by
  rw [extractTodo]
  split
  · exact ⟨rfl, rfl, rfl, rfl, rfl, rfl, rfl, rfl, rfl⟩
  · dsimp only
    split
    · exact ⟨rfl, rfl, rfl, rfl, rfl, rfl, rfl, rfl, rfl⟩
    · split <;> exact ⟨rfl, rfl, rfl, rfl, rfl, rfl, rfl, rfl, rfl⟩

theorem tsExtract_stream (dx : TsDemux) : SameStream dx (tsExtract dx) :=
  extractTodo_stream (some always) dx

theorem consumeAll_stream (dx : TsDemux) (payload : List UInt8) :
    SameStream (consumePayload dx payload) (consumeAll dx payload) := by
  rw [consumeAll]
  split
  · rw [pesComplete]
    split <;> exact ⟨rfl, rfl, rfl, rfl, rfl, rfl, rfl, rfl, rfl⟩
  · exact ⟨rfl, rfl, rfl, rfl, rfl, rfl, rfl, rfl, rfl⟩

theorem SameStream.trans {t u : TsDemux} (h : SameStream dx t) (k : SameStream t u) :
    SameStream dx u :=
  ⟨k.skip.trans h.skip, k.consume.trans h.consume, k.lookahead.trans h.lookahead,
    k.buffer.trans h.buffer, k.inSync.trans h.inSync, k.pes.trans h.pes, k.pesTodo.trans h.pesTodo,
    k.continuity.trans h.continuity, k.pid.trans h.pid⟩

structure Skipped (dx t : TsDemux) : Prop where
  frameTodo : t.frameTodo = dx.frameTodo
  inSync : t.inSync = dx.inSync
  lookahead_pos : 0 < t.lookahead
  window : t.buffer.length + t.lookahead = tsHeaderLookahead

theorem skipTsPacket_skipped (dx : TsDemux) (h : p.length < 198) :
    Skipped dx (skipTsPacket dx p) := by
  rw [skipTsPacket]
  unfold tsHeaderLookahead
  split
  · exact ⟨rfl, rfl, Nat.succ_pos 9, rfl⟩
  · refine ⟨rfl, rfl, ?_, ?_⟩
    · dsimp only
      omega
    · dsimp only
      unfold tsHeaderLookahead
      rw [List.length_drop]
      omega

theorem copyFragment_skipped (dx : TsDemux) (h : p.length < 198) :
    Skipped dx (copyFragment dx p) := by
  rw [copyFragment]
  unfold tsHeaderLookahead
  split
  · exact ⟨rfl, rfl, Nat.succ_pos 9, rfl⟩
  · refine ⟨rfl, rfl, ?_, ?_⟩
    · dsimp only
      omega
    · dsimp only
      unfold tsHeaderLookahead
      rw [List.length_drop]
      omega

theorem skipTsPesPacket_skipped (dx : TsDemux) (h : p.length < 198) :
    Skipped dx (skipTsPesPacket dx p) := by
  have hskipped := skipTsPacket_skipped { dx with
    decoder := discardFrame dx.decoder
    pesTodo := 0
    consume := 0 } h
  exact ⟨hskipped.1, hskipped.2, hskipped.3, hskipped.4⟩

theorem tsHeader_skipped (dx : TsDemux) (h : p.length < 198) : Skipped dx (tsHeader dx p) := by
  have hpes := skipTsPesPacket_skipped dx h
  have hpacket := skipTsPacket_skipped dx h
  have hcount : ∀ {t : TsDemux}, Skipped (dx.count p) t → Skipped dx t :=
    fun h => ⟨h.1, h.2, h.3, h.4⟩
  have hpayload : Skipped dx (tsPayload (dx.count p) p) := by
    rw [tsPayload]
    split
    · split
      · exact hcount (skipTsPesPacket_skipped _ h)
      · split
        · exact hcount (skipTsPesPacket_skipped _ h)
        · have hcopied := copyFragment_skipped
            ((dx.count p).startPes (packetLength (p.drop 4) + 6)) h
          exact ⟨hcopied.1, hcopied.2, hcopied.3, hcopied.4⟩
    · split
      · exact hcount (skipTsPesPacket_skipped _ h)
      · exact hcount (copyFragment_skipped _ h)
  rw [tsHeader]
  split
  · exact hpes
  split
  · exact hpacket
  split
  · exact hpes
  split
  · rw [tsContinuity]
    split
    · split
      · exact hpacket
      · exact hcount (skipTsPesPacket_skipped _ h)
    · exact hpayload
  split
  · exact hpacket
  · exact hpes

theorem syncSearch_length {n : Nat} {q : List UInt8} (h : syncSearch n p = some q) :
    q.length ≤ p.length := by
  induction n generalizing p with
  | zero => cases h
  | succ n ih =>
    rw [syncSearch] at h
    split at h
    · cases h
      exact le_rfl
    · have hrest := ih h
      rw [List.length_drop] at hrest
      omega

/-- With the lookahead in the buffer the reader acts and is ready again. -/
theorem tsLookahead_ready (htodo : dx.frameTodo = [])
    (hbuffer : dx.buffer.length = if dx.inSync then tsHeaderLookahead else tsSyncSearchLookahead) :
    Ready (tsLookahead dx) := by
  have hskipped : ∀ (t u : TsDemux), t.frameTodo = [] → t.inSync = true → Skipped t u →
      Ready u := by
    intro t u ht hsync h
    refine ⟨h.frameTodo.trans ht, h.lookahead_pos, ?_⟩
    rw [h.inSync, hsync]
    exact h.window
  unfold tsHeaderLookahead tsSyncSearchLookahead at hbuffer
  rw [tsLookahead]
  split
  · rename_i hsync
    rw [if_pos hsync] at hbuffer
    split
    · refine ⟨htodo, ?_, ?_⟩
      · dsimp only
        rw [hbuffer]
        decide
      · dsimp only
        rw [hbuffer]
        rfl
    · exact hskipped _ _ htodo hsync (tsHeader_skipped dx (by omega))
  · rename_i hsync
    rw [if_neg hsync] at hbuffer
    split
    · refine ⟨htodo, ?_, ?_⟩
      · dsimp only
        rw [hbuffer]
        decide
      · dsimp only
        rw [if_neg hsync, List.length_drop, hbuffer]
        rfl
    · rename_i p hp
      have hlength := syncSearch_length hp
      exact hskipped { dx with inSync := true } _ htodo rfl (tsHeader_skipped _ (by omega))

theorem ready_extract (h : Ready dx) (payload : List UInt8) :
    Ready (tsExtract (consumeAll dx payload)) := by
  have hstream := (consumeAll_stream dx payload).trans (tsExtract_stream _)
  refine ⟨tsExtract_frameTodo _, ?_, ?_⟩
  · rw [hstream.lookahead]
    exact h.lookahead_pos
  · rw [hstream.lookahead, hstream.buffer, hstream.inSync]
    exact h.window

theorem tsRead_reads {t : TsDemux} (h : Ready t) (hconsume : t.consume = 0) (src : List UInt8) :
    match tsRead t src with
    | .error e => tsBytes t src = e ∧ Ready e
    | .ok (e, rest) => tsBytes t src = tsBytes (tsLookahead e) rest ∧ Ready (tsLookahead e) ∧
        rest.length < src.length := by
  rw [tsRead]
  by_cases hskip : src.length < t.skip
  · rw [if_pos hskip]
    exact ⟨tsBytes_skip hconsume (by omega), h.1, h.2, h.3⟩
  rw [if_neg hskip]
  dsimp only
  have htake : (src.take t.skip).length = t.skip := List.length_take_of_le (by omega)
  have hskipped : tsBytes t src = tsBytes { t with skip := 0 } (src.drop t.skip) := by
    have hread := tsBytes_skip hconsume (Nat.le_of_eq htake)
    rw [htake, Nat.sub_self] at hread
    rw [← hread, ← tsBytes_append, List.take_append_drop]
  have hdrop : (src.drop t.skip).length ≤ src.length := by
    rw [List.length_drop]
    omega
  rw [hskipped]
  generalize src.drop t.skip = src' at hdrop ⊢
  by_cases hbuffer : src'.length < t.lookahead
  · rw [if_pos hbuffer]
    refine ⟨tsBytes_buffer hconsume rfl hbuffer, h.1, ?_, ?_⟩
    · dsimp only
      omega
    · dsimp only
      rw [List.length_append, ← h.window]
      omega
  rw [if_neg hbuffer]
  dsimp only
  have hwindow : (src'.take t.lookahead).length = t.lookahead :=
    List.length_take_of_le (by omega)
  refine ⟨?_, ?_, ?_⟩
  · rw [← @tsBytes_lookahead { t with skip := 0 } _ hconsume rfl h.lookahead_pos hwindow,
      ← tsBytes_append, List.take_append_drop]
  · apply tsLookahead_ready (by exact h.frameTodo)
    dsimp only
    rw [List.length_append, hwindow, h.window]
  · have hpos := h.lookahead_pos
    rw [List.length_drop]
    omega

theorem tsLoop_reads (fuel : Nat) (h : Ready dx) (hfuel : src.length < fuel) :
    tsLoop (some always) fuel dx src = ⟨tsBytes dx src, none, []⟩ ∧ Ready (tsBytes dx src) := by
  induction fuel generalizing dx src with
  | zero => omega
  | succ fuel ih =>
    rw [tsLoop]
    by_cases hpart : src.length < dx.consume
    · rw [if_pos hpart, tsBytes_consume_part hpart]
      exact ⟨rfl, h.1, h.2, h.3⟩
    rw [if_neg hpart, extractTodo_always]
    dsimp only
    have htake : (src.take dx.consume).length = dx.consume :=
      List.length_take_of_le (Nat.not_lt.mp hpart)
    -- the payload, if there is any
    have hpayload : tsBytes dx src =
        tsBytes (tsExtract (consumeAll dx (src.take dx.consume))) (src.drop dx.consume) := by
      rcases Nat.eq_zero_or_pos dx.consume with hzero | hpos
      · have hnothing : consumeAll dx [] = dx := by
          rw [consumeAll, if_neg (by omega), consumePayload_nil]
        rw [hzero, List.take_zero, List.drop_zero, hnothing, tsExtract_nothing h.frameTodo]
      · rw [← tsBytes_consume htake hpos, ← tsBytes_append, List.take_append_drop]
    have hconsume : (tsExtract (consumeAll dx (src.take dx.consume))).consume = 0 := by
      rw [((consumeAll_stream dx _).trans (tsExtract_stream _)).consume]
      change dx.consume - (src.take dx.consume).length = 0
      omega
    have hread := tsRead_reads (ready_extract h (src.take dx.consume)) hconsume
      (src.drop dx.consume)
    rw [hpayload]
    split
    · rename_i e he
      rw [he] at hread
      rw [hread.1]
      exact ⟨rfl, hread.2⟩
    · rename_i e rest he
      rw [he] at hread
      obtain ⟨hbytes, hready, hlength⟩ := hread
      rw [List.length_drop] at hlength
      rw [hbytes]
      exact ih hready (by omega)

/-- A call reads its buffer, whatever the calls before were. -/
theorem demuxTsPacket_reads (h : Ready dx) (src : List UInt8) :
    demuxTsPacket (some always) dx src = ⟨tsBytes dx src, none, []⟩ ∧ Ready (tsBytes dx src) := by
  rw [demuxTsPacket]
  split
  · rename_i hempty
    rw [hempty]
    exact ⟨rfl, h⟩
  · exact tsLoop_reads _ h (Nat.lt_succ_self _)

theorem ready_tsDemuxNew (pid : Nat) : Ready (tsDemuxNew pid) :=
  ⟨rfl, Nat.succ_pos 196, rfl⟩

end DvbTsReader
