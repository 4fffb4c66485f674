import Zvbi.PfcDemux
import Zvbi.StreamMachine

/-!
# What a Page Function Clear stream carries

The payload of the packets of a page, one after the other, is a sequence of
filler bytes and blocks, and each block is a separator, a structure header of
four bytes and the data. The parser here reads that sequence byte by byte and
knows nothing about packets. The demultiplexer is shown to deliver what the
parser finds, however the sequence is divided into packets and pages.
-/

namespace PfcStream
open Hamming PfcDemux StreamMachine

structure Block where
  applicationId : Int
  data : List UInt8
  deriving DecidableEq

inductive Parser where
  /-- Between two blocks. -/
  | gap
  | header (got : List UInt8)
  | data (applicationId : Int) (size : Nat) (got : List UInt8)
  deriving DecidableEq

def openBlock (sh : Nat) : Parser × List Block :=
  if sh / 32 = 0 then (.gap, [⟨(sh % 32 : Nat), []⟩])
  else (.data (sh % 32 : Nat) (sh / 32) [], [])

def closeHeader (got : List UInt8) : Option (Parser × List Block) :=
  if structureHeader got < 0 then none else some (openBlock (structureHeader got).toNat)

def step : Parser → UInt8 → Option (Parser × List Block)
  | .gap, c =>
    if vbiUnham8 c = fillerByte then some (.gap, [])
    else if vbiUnham8 c = blockSeparator then some (.header [], [])
    else none
  | .header got, c =>
    if got.length + 1 < 4 then some (.header (got ++ [c]), []) else closeHeader (got ++ [c])
  | .data a size got, c =>
    if got.length + 1 < size then some (.data a size (got ++ [c]), [])
    else some (.gap, [⟨a, got ++ [c]⟩])

theorem header_gathers : Gathers step .header 4 closeHeader := by
  constructor
  · intro got x h
    simp only [step, if_pos h]
  · intro got x h
    simp only [step, if_neg (show ¬ got.length + 1 < 4 by omega)]

theorem data_gathers (a : Int) (size : Nat) :
    Gathers step (.data a size) size fun got => some (.gap, [⟨a, got⟩]) := by
  constructor
  · intro got x h
    simp only [step, if_pos h]
  · intro got x h
    simp only [step, if_neg (show ¬ got.length + 1 < size by omega)]

def Fillers (bytes : List UInt8) : Prop := ∀ c ∈ bytes, vbiUnham8 c = fillerByte

variable {bytes got : List UInt8} {col bp total fuel : Nat} {out : List Block} {p : Packet}
  {t s : Parser} {dx : Demux}

theorem run_fillers (h : Fillers bytes) : run step .gap bytes = some (.gap, []) := by
  induction bytes with
  | nil => rfl
  | cons c bytes ih =>
    have hstep : step .gap c = some (.gap, []) := by
      simp only [step, if_pos (h c List.mem_cons_self)]
    exact run_cons hstep (ih fun x hx => h x (List.mem_cons_of_mem c hx))

theorem step_separator {c : UInt8} (h : vbiUnham8 c = blockSeparator) :
    step .gap c = some (.header [], []) := by
  have hne : ¬ blockSeparator = fillerByte := by decide
  simp only [step, h, if_neg hne, if_pos]

theorem drop_eq_byte_cons (p : Packet) (h : col < 42) :
    p.buffer.drop col = p.byte col :: p.buffer.drop (col + 1) := by
  have hlen : col < p.buffer.length := by rw [p.length_eq]; exact h
  rw [List.drop_eq_getElem_cons hlen, Packet.byte, List.getD_append _ _ _ _ hlen,
    List.getD_eq_getElem _ _ hlen]

theorem byte_behind (p : Packet) : p.byte 42 = p.behind := by
  have hlen : p.buffer.length ≤ 42 := Nat.le_of_eq p.length_eq
  rw [Packet.byte, List.getD_append_right _ _ _ _ hlen, p.length_eq]
  rfl

def Points (p : Packet) (bp : Nat) : Prop :=
  if bp ≥ 39 then Fillers p.payload
  else Fillers (p.payload.take bp) ∧ vbiUnham8 (p.byte (bp + 3)) = blockSeparator

/-- The search stops at the next separator, having seen what the parser saw. -/
structure Reaches (p : Packet) (col next : Nat) : Prop where
  forward : col < next
  inside : next ≤ 42
  seen : ∃ bytes, p.buffer.drop col = bytes ++ p.buffer.drop next ∧
    run step .gap bytes = some (.header [], [])

theorem skipFillers_gap (fuel : Nat) (hfuel : fuel + col = 43) (hcol : col < 42)
    (hrun : run step .gap (p.buffer.drop col) = some (t, out)) :
    (skipFillers p fuel col = .done ∧ t = .gap ∧ out = []) ∨
      ∃ next, skipFillers p fuel col = .found next ∧ Reaches p col next := by
  induction fuel generalizing col with
  | zero => omega
  | succ fuel ih =>
    rw [drop_eq_byte_cons p hcol] at hrun
    obtain ⟨u, first, rest, hstep, hrest, rfl⟩ := run_cons_inv hrun
    by_cases hfill : vbiUnham8 (p.byte col) = fillerByte
    · have hgap : step .gap (p.byte col) = some (.gap, []) := by
        simp only [step, if_pos hfill]
      rw [hgap] at hstep
      obtain ⟨rfl, rfl⟩ := Prod.mk.inj (Option.some.inj hstep)
      simp only [skipFillers, if_pos hfill]
      by_cases hend : col + 1 ≥ 42
      · left
        have hnil : p.buffer.drop (col + 1) = [] :=
          List.drop_eq_nil_of_le (by rw [p.length_eq]; exact hend)
        rw [hnil, run_nil] at hrest
        obtain ⟨rfl, rfl⟩ := Prod.mk.inj (Option.some.inj hrest)
        exact ⟨if_pos hend, rfl, rfl⟩
      · rw [if_neg hend]
        rcases ih (by omega) (by omega) hrest with ⟨hdone, hgap', hout⟩ | ⟨next, hfound, hreach⟩
        · exact Or.inl ⟨hdone, hgap', hout⟩
        · right
          obtain ⟨bytes, hbytes, hseen⟩ := hreach.seen
          have hforward := hreach.forward
          refine ⟨next, hfound, by omega, hreach.inside, p.byte col :: bytes, ?_, ?_⟩
          · rw [drop_eq_byte_cons p hcol, hbytes, List.cons_append]
          · exact run_cons hgap hseen
    · right
      have hsep : vbiUnham8 (p.byte col) = blockSeparator := by
        by_contra hne
        simp only [step, if_neg hfill, if_neg hne] at hstep
        cases hstep
      refine ⟨col + 1, ?_, by omega, by omega, [p.byte col], ?_, ?_⟩
      · simp only [skipFillers, if_neg hfill, separatorAt, if_pos hsep]
      · rw [drop_eq_byte_cons p hcol, List.singleton_append]
      · exact run_cons (step_separator hsep) (run_nil _)

theorem findSeparator_gap (hlow : 3 ≤ col) (hcol : col < 42) (hptr : col = 3 → Points p bp)
    (hrun : run step .gap (p.buffer.drop col) = some (t, out)) :
    (findSeparator p bp col = .done ∧ t = .gap ∧ out = []) ∨
      ∃ next, findSeparator p bp col = .found next ∧ Reaches p col next := by
  by_cases hstart : col = 3
  · subst hstart
    have hpoints := hptr rfl
    rw [Points] at hpoints
    by_cases hnone : bp ≥ 39
    · left
      rw [if_pos hnone] at hpoints
      change run step .gap p.payload = some (t, out) at hrun
      rw [run_fillers hpoints] at hrun
      obtain ⟨rfl, rfl⟩ := Prod.mk.inj (Option.some.inj hrun)
      exact ⟨by simp only [findSeparator, Nat.le_refl, if_true, if_pos hnone], rfl, rfl⟩
    · right
      rw [if_neg hnone] at hpoints
      obtain ⟨hfill, hsep⟩ := hpoints
      refine ⟨bp + 4, ?_, by omega, by omega, p.payload.take bp ++ [p.byte (bp + 3)], ?_, ?_⟩
      · simp only [findSeparator, Nat.le_refl, if_true, if_neg hnone, separatorAt, if_pos hsep]
      · have hsplit := List.take_append_drop bp p.payload
        have hdrop : p.payload.drop bp = p.byte (bp + 3) :: p.buffer.drop (bp + 4) := by
          rw [Packet.payload, List.drop_drop, Nat.add_comm 3 bp, drop_eq_byte_cons p (by omega)]
        rw [hdrop] at hsplit
        rw [List.append_assoc, List.singleton_append, hsplit]
        rfl
      · have hseen := run_append (run_fillers hfill) (run_cons (step_separator hsep) (run_nil _))
        exact hseen
  · have hskip := skipFillers_gap (43 - col) (by omega) hcol hrun
    have hfind : findSeparator p bp col = skipFillers p (43 - col) col := by
      rw [findSeparator, if_neg (by omega)]
    rw [hfind]
    exact hskip

/-- The first bytes of `total` are in the buffer. -/
structure Holds (dx : Demux) (got : List UInt8) (total : Nat) : Prop where
  part : got.length < total
  position : dx.bi = got.length
  missing : dx.left = total - got.length
  bytes : dx.block.block.take got.length = got

/-- The demultiplexer stands where the parser does. -/
def Agrees (dx : Demux) : Parser → Prop
  | .gap => dx.left = 0
  | .header got => dx.block.applicationId = -1 ∧ Holds dx got 4
  | .data a size got =>
    0 ≤ a ∧ dx.block.applicationId = a ∧ dx.block.blockSize = size ∧ Holds dx got size

structure SameFilter (dx r : Demux) : Prop where
  ci : r.ci = dx.ci
  packet : r.packet = dx.packet
  nPackets : r.nPackets = dx.nPackets
  pgno : r.block.pgno = dx.block.pgno
  stream : r.block.stream = dx.block.stream

variable {m r : Demux} {first rest : List Block}

theorem SameFilter.of_trans (h : SameFilter dx m) (h' : SameFilter m r) : SameFilter dx r :=
  ⟨h'.ci.trans h.ci, h'.packet.trans h.packet, h'.nPackets.trans h.nPackets,
    h'.pgno.trans h.pgno, h'.stream.trans h.stream⟩

theorem store_take (h : Holds dx got total) (bytes : List UInt8) :
    (store dx bytes).block.block.take (got.length + bytes.length) = got ++ bytes := by
  have hpre : dx.block.block.take dx.bi = got := by rw [h.position, h.bytes]
  simp only [store, hpre]
  rw [List.take_append_of_le_length (by rw [List.length_append])]
  exact List.take_of_length_le (by rw [List.length_append])

theorem store_holds (h : Holds dx got total) (hlt : bytes.length < total - got.length) :
    Holds (store dx bytes) (got ++ bytes) total := by
  have hpart := h.part
  constructor
  · rw [List.length_append]
    omega
  · rw [List.length_append, ← h.position]
    rfl
  · rw [List.length_append, ← Nat.sub_sub, ← h.missing]
    rfl
  · rw [List.length_append]
    exact store_take h bytes

theorem structureHeader_take (block : List UInt8) :
    structureHeader (block.take 4) = structureHeader block := by
  simp [structureHeader, List.getD_eq_getElem?_getD]

theorem openBlock_agrees (dx : Demux) (sh : Nat) : Agrees (openData dx sh) (openBlock sh).1 := by
  by_cases hempty : sh / 32 = 0
  · simp only [openBlock, if_pos hempty]
    exact hempty
  · simp only [openBlock, if_neg hempty]
    refine ⟨Int.natCast_nonneg _, rfl, rfl, ?_⟩
    exact ⟨Nat.pos_of_ne_zero hempty, rfl, rfl, rfl⟩

theorem openHeader_agrees (dx : Demux) : Agrees (openHeader dx) (.header []) :=
  ⟨rfl, by decide, rfl, rfl, rfl⟩

/-- What the client reads from a delivered block. -/
def content (b : PfcBlock) : Block := ⟨b.applicationId, b.block.take b.blockSize⟩

def EndsWithBlock (s : Parser) (bytes : List UInt8) : Prop :=
  match run step s bytes.dropLast with
  | some (.data _ size got, _) => got.length + 1 = size
  | _ => False

instance (s : Parser) (bytes : List UInt8) : Decidable (EndsWithBlock s bytes) := by
  unfold EndsWithBlock
  split <;> infer_instance

theorem endsWithBlock_append {rest : List UInt8} (hrun : run step s bytes = some (t, out))
    (hne : rest ≠ []) (h : EndsWithBlock t rest) : EndsWithBlock s (bytes ++ rest) := by
  unfold EndsWithBlock at h ⊢
  rw [List.dropLast_append_of_ne_nil hne]
  cases hrest : run step t rest.dropLast with
  | none => simp only [hrest] at h
  | some r =>
    obtain ⟨state, blocks⟩ := r
    rw [hrest] at h
    rw [run_append hrun hrest]
    cases state with
    | gap => exact h
    | header got => exact h
    | data a size got => exact h

theorem nonempty_openBlock (sh : Nat) :
    (openBlock sh).2.filter (fun b => b.data ≠ []) = [] := by
  by_cases hempty : sh / 32 = 0
  · simp [openBlock, hempty]
  · simp [openBlock, hempty]

theorem store_sameFilter (dx : Demux) (bytes : List UInt8) : SameFilter dx (store dx bytes) :=
  ⟨rfl, rfl, rfl, rfl, rfl⟩

theorem openData_sameFilter (dx : Demux) (sh : Nat) : SameFilter dx (openData dx sh) :=
  ⟨rfl, rfl, rfl, rfl, rfl⟩

theorem openHeader_sameFilter (dx : Demux) : SameFilter dx (openHeader dx) :=
  ⟨rfl, rfl, rfl, rfl, rfl⟩

def accept (_ : PfcBlock) : Bool := true

def chunk (p : Packet) (col left : Nat) : List UInt8 := (p.buffer.drop col).take left

theorem chunk_append (p : Packet) (col left : Nat) :
    p.buffer.drop col = chunk p col left ++ p.buffer.drop (col + left) := by
  rw [chunk, ← List.drop_drop, List.take_append_drop]

theorem length_chunk (p : Packet) (col left : Nat) :
    (chunk p col left).length = min left (42 - col) := by
  rw [chunk, List.length_take, List.length_drop, p.length_eq]

/-- Less is left in the packet than is missing. -/
theorem collect_part (h : Holds dx got total) (hshort : 42 - col < total - got.length)
    (f : PfcBlock → Bool) :
    ∃ r, collect f p col dx = .unfinished r ∧ r = store dx (p.buffer.drop col) := by
  have hleft : dx.left ≠ 0 := by rw [h.missing]; omega
  have hmin : min dx.left (42 - col) = 42 - col := by rw [h.missing]; omega
  have hall : (p.buffer.drop col).take (42 - col) = p.buffer.drop col :=
    List.take_of_length_le (by rw [List.length_drop, p.length_eq])
  have hmore : (store dx (p.buffer.drop col)).left > 0 := by
    change dx.left - (p.buffer.drop col).length > 0
    rw [h.missing, List.length_drop, p.length_eq]
    omega
  refine ⟨_, ?_, rfl⟩
  simp only [collect, if_neg hleft, hmin, hall, if_pos hmore]

theorem collect_full (p : Packet) (col : Nat) {n : Nat} (h : Holds dx got total)
    (hn : got.length + n = total) (hfits : n ≤ 42 - col) (f : PfcBlock → Bool) :
    collect f p col dx = interpret f (store dx (chunk p col n)) (col + n) ∧
      (store dx (chunk p col n)).left = 0 ∧
      (store dx (chunk p col n)).block.block.take total = got ++ chunk p col n := by
  have hpart := h.part
  have hlen : (chunk p col n).length = n := by
    rw [length_chunk]
    omega
  have hleft : dx.left = n := by
    rw [h.missing]
    omega
  have hdone : (store dx (chunk p col n)).left = 0 := by
    change dx.left - (chunk p col n).length = 0
    rw [hleft, hlen, Nat.sub_self]
  refine ⟨?_, hdone, ?_⟩
  · have hmin : min dx.left (42 - col) = n := by omega
    have hzero : dx.left ≠ 0 := by omega
    rw [collect, if_neg hzero, hmin]
    change (if (store dx (chunk p col n)).left > 0 then _ else _) = _
    rw [hdone, if_neg (Nat.lt_irrefl 0)]
    rfl
  · have htake := store_take h (chunk p col n)
    rwa [hlen, hn] at htake

/-- The call keeps up with the parser and delivers the blocks it finds, less
those without data. -/
def Follows (dx : Demux) (t : Parser) (out : List Block) (r : Outcome) : Prop :=
  r.ok = true ∧ Agrees r.dx t ∧ SameFilter dx r.dx ∧
    r.delivered.map content = out.filter fun b => b.data ≠ []

theorem Follows.of_sameFilter {r : Outcome} (h : Follows m t out r) (hsame : SameFilter dx m) :
    Follows dx t out r :=
  ⟨h.1, h.2.1, hsame.of_trans h.2.2.1, h.2.2.2⟩

structure Readable (p : Packet) (bp col : Nat) (s t : Parser) (out : List Block) : Prop where
  low : 3 ≤ col
  high : col ≤ 42
  pointer : col = 3 → s = .gap → Points p bp
  behind : EndsWithBlock s (p.buffer.drop col) → vbiUnham8 p.behind = fillerByte
  parsed : run step s (p.buffer.drop col) = some (t, out)

/-- Later in the packet less is needed. -/
theorem Readable.advance {next : Nat} {m : Parser} (h : Readable p bp col s t out)
    (hlt : col < next) (hle : next ≤ 42) (hsplit : p.buffer.drop col = bytes ++ p.buffer.drop next)
    (hfirst : run step s bytes = some (m, first))
    (hrest : run step m (p.buffer.drop next) = some (t, rest)) :
    next = 42 ∨ Readable p bp next m t rest := by
  have hlow := h.low
  by_cases hend : next = 42
  · exact Or.inl hend
  · right
    have hne : p.buffer.drop next ≠ [] := by
      rw [drop_eq_byte_cons p (by omega)]
      exact List.cons_ne_nil _ _
    refine ⟨by omega, hle, fun hstart => absurd hstart (by omega), ?_, hrest⟩
    intro hends
    apply h.behind
    rw [hsplit]
    exact endsWithBlock_append hfirst hne hends

theorem drop_all (p : Packet) : p.buffer.drop 42 = [] :=
  List.drop_eq_nil_of_le (Nat.le_of_eq p.length_eq)

theorem decodeLoop_end (f : PfcBlock → Bool) (p : Packet) (bp fuel : Nat) (dx : Demux) :
    decodeLoop f p bp fuel 42 dx = ⟨dx, [], true⟩ := by
  cases fuel with
  | zero => rfl
  | succ fuel => rw [decodeLoop, if_pos (Nat.le_refl 42)]

theorem decodeLoop_pass (f : PfcBlock → Bool) (p : Packet) (bp fuel : Nat) (hcol : col < 42)
    (dx : Demux) : decodeLoop f p bp (fuel + 1) col dx =
      proceed p bp (decodeLoop f p bp fuel) (collect f p col dx) := by
  rw [decodeLoop, if_neg (Nat.not_le_of_lt hcol)]

theorem follows_end (h : Agrees dx s) : Follows dx s [] ⟨dx, [], true⟩ :=
  ⟨rfl, h, ⟨rfl, rfl, rfl, rfl, rfl⟩, rfl⟩

theorem follows_after {o : Outcome} (h : Follows dx t out o) {b : PfcBlock}
    (hdata : (content b).data ≠ []) : Follows dx t (content b :: out) (o.after [b]) := by
  refine ⟨h.1, h.2.1, h.2.2.1, ?_⟩
  rw [List.filter_cons_of_pos (by simpa using hdata), ← h.2.2.2]
  rfl

/-- The rest of the loop keeps up from every later place in the packet. -/
def Continues (p : Packet) (bp fuel col : Nat) (s t : Parser) : Prop :=
  ∀ next r m first rest bytes, col < next → next ≤ 42 →
    p.buffer.drop col = bytes ++ p.buffer.drop next → run step s bytes = some (m, first) →
    run step m (p.buffer.drop next) = some (t, rest) → Agrees r m →
    Follows r t rest (decodeLoop accept p bp fuel next r)

/-- The second half of a pass, from the place `mid` between two blocks. -/
theorem openNext_follows {mid : Nat} (continues : Continues p bp fuel col s t) (hle : col ≤ mid)
    (hlow : 3 ≤ mid) (hmid : mid < 42) (hptr : mid = 3 → Points p bp)
    (hsplit : p.buffer.drop col = bytes ++ p.buffer.drop mid)
    (hfirst : run step s bytes = some (.gap, first))
    (hrest : run step .gap (p.buffer.drop mid) = some (t, rest)) (hr : Agrees r .gap) :
    Follows r t rest (openNext (decodeLoop accept p bp fuel) r (findSeparator p bp mid)) := by
  rcases findSeparator_gap hlow hmid hptr hrest with ⟨hdone, rfl, rfl⟩ | ⟨next, hfound, hreach⟩
  · rw [hdone]
    exact follows_end hr
  · obtain ⟨skipped, hskipped, hseen⟩ := hreach.seen
    rw [hskipped] at hrest
    obtain ⟨m, silent, tail, hm, htail, rfl⟩ := run_append_inv hrest
    rw [hseen] at hm
    obtain ⟨rfl, rfl⟩ := Prod.mk.inj (Option.some.inj hm)
    have hforward := hreach.forward
    have hloop := continues next (openHeader r) _ _ _ (bytes ++ skipped) (by omega) hreach.inside
      (by rw [hsplit, hskipped, List.append_assoc]) (run_append hfirst hseen) htail
      (openHeader_agrees r)
    rw [hfound]
    exact hloop.of_sameFilter (openHeader_sameFilter r)

theorem gap_follows (continues : Continues p bp fuel col .gap t) (ha : Agrees dx .gap)
    (h : Readable p bp col .gap t out) (hcol : col < 42) :
    Follows dx t out (decodeLoop accept p bp (fuel + 1) col dx) := by
  have hcollect : collect accept p col dx = .free dx col [] := if_pos ha
  rw [decodeLoop_pass _ _ _ _ hcol, hcollect]
  exact openNext_follows continues (Nat.le_refl col) h.low hcol
    (fun hstart => h.pointer hstart rfl) (List.nil_append _).symm (run_nil _) h.parsed ha

theorem part_follows (hheld : Holds dx got total) (hshort : 42 - col < total - got.length)
    (hcol : col < 42) (hnext : Agrees (store dx (p.buffer.drop col)) t) :
    Follows dx t [] (decodeLoop accept p bp (fuel + 1) col dx) := by
  obtain ⟨r, hcollect, rfl⟩ := collect_part hheld hshort accept
  rw [decodeLoop_pass _ _ _ _ hcol, hcollect]
  exact (follows_end hnext).of_sameFilter (store_sameFilter dx _)

theorem closeHeader_inv {m : Parser} (h : closeHeader got = some (m, first)) :
    0 ≤ structureHeader got ∧ openBlock (structureHeader got).toNat = (m, first) := by
  rw [closeHeader] at h
  by_cases hneg : structureHeader got < 0
  · rw [if_pos hneg] at h
    cases h
  · rw [if_neg hneg] at h
    exact ⟨by omega, Option.some.inj h⟩

theorem header_follows (continues : Continues p bp fuel col (.header got) t)
    (ha : Agrees dx (.header got)) (h : Readable p bp col (.header got) t out) (hcol : col < 42) :
    Follows dx t out (decodeLoop accept p bp (fuel + 1) col dx) := by
  obtain ⟨happ, hheld⟩ := ha
  have hpart := hheld.part
  have hrun := h.parsed
  by_cases hshort : 42 - col < 4 - got.length
  · have hlen : (p.buffer.drop col).length = 42 - col := by rw [List.length_drop, p.length_eq]
    rw [header_gathers.run_part (by omega)] at hrun
    obtain ⟨rfl, rfl⟩ := Prod.mk.inj (Option.some.inj hrun)
    exact part_follows hheld hshort hcol ⟨happ, store_holds hheld (by omega)⟩
  · obtain ⟨n, hn⟩ : ∃ n, got.length + n = 4 := ⟨4 - got.length, by omega⟩
    obtain ⟨hcollect, hdone, htake⟩ := collect_full p col hheld hn (by omega) accept
    have htotal : got.length + (chunk p col n).length = 4 := by
      rw [length_chunk]
      omega
    rw [chunk_append p col n] at hrun
    obtain ⟨m, first, tail, hfirst, htail, rfl⟩ := run_append_inv hrun
    have hclose := hfirst
    rw [header_gathers.run_full hpart htotal] at hclose
    obtain ⟨hsh, hopen⟩ := closeHeader_inv hclose
    have hdecoded : structureHeader (store dx (chunk p col n)).block.block =
        structureHeader (got ++ chunk p col n) := by
      rw [← structureHeader_take, htake]
    have hneg : (store dx (chunk p col n)).block.applicationId < 0 := by
      change dx.block.applicationId < 0
      rw [happ]
      decide
    rw [interpret, if_pos hneg, hdecoded, if_neg (by omega)] at hcollect
    rw [decodeLoop_pass _ _ _ _ hcol, hcollect]
    have hagrees := openBlock_agrees (store dx (chunk p col n))
      (structureHeader (got ++ chunk p col n)).toNat
    have hempty := nonempty_openBlock (structureHeader (got ++ chunk p col n)).toNat
    rw [hopen] at hagrees hempty
    have hloop := continues (col + n) _ _ _ _ _ (by omega) (by omega) (chunk_append p col n) hfirst
      htail hagrees
    refine ⟨hloop.1, hloop.2.1, ?_, ?_⟩
    · exact ((store_sameFilter dx _).of_trans (openData_sameFilter _ _)).of_trans hloop.2.2.1
    · rw [List.filter_append, hempty, List.nil_append]
      exact hloop.2.2.2

theorem data_follows {a : Int} {size : Nat}
    (continues : Continues p bp fuel col (.data a size got) t) (ha : Agrees dx (.data a size got))
    (h : Readable p bp col (.data a size got) t out) (hcol : col < 42) :
    Follows dx t out (decodeLoop accept p bp (fuel + 1) col dx) := by
  obtain ⟨hpos, happ, hsize, hheld⟩ := ha
  have hpart := hheld.part
  have hrun := h.parsed
  have hlow := h.low
  have hlen : (p.buffer.drop col).length = 42 - col := by rw [List.length_drop, p.length_eq]
  by_cases hshort : 42 - col < size - got.length
  · rw [(data_gathers a size).run_part (by omega)] at hrun
    obtain ⟨rfl, rfl⟩ := Prod.mk.inj (Option.some.inj hrun)
    exact part_follows hheld hshort hcol ⟨hpos, happ, hsize, store_holds hheld (by omega)⟩
  · obtain ⟨n, hn⟩ : ∃ n, got.length + n = size := ⟨size - got.length, by omega⟩
    obtain ⟨hcollect, hdone, htake⟩ := collect_full p col hheld hn (by omega) accept
    have htotal : got.length + (chunk p col n).length = size := by
      rw [length_chunk]
      omega
    have hpos' : ¬ (store dx (chunk p col n)).block.applicationId < 0 := by
      change ¬ dx.block.applicationId < 0
      omega
    rw [interpret, if_neg hpos', accept, if_pos rfl] at hcollect
    have hcontent : content (store dx (chunk p col n)).block = ⟨a, got ++ chunk p col n⟩ := by
      have hkept : (store dx (chunk p col n)).block.blockSize = size := hsize
      rw [content, hkept, htake, ← happ]
      rfl
    have hdata : (content (store dx (chunk p col n)).block).data ≠ [] := by
      rw [hcontent]
      intro hnil
      have hempty : got ++ chunk p col n = [] := hnil
      rw [← htotal, ← List.length_append, hempty, List.length_nil] at hpart
      omega
    rw [chunk_append p col n] at hrun
    obtain ⟨m, first, tail, hfirst, htail, rfl⟩ := run_append_inv hrun
    have hclose := hfirst
    rw [(data_gathers a size).run_full hpart htotal] at hclose
    obtain ⟨rfl, rfl⟩ := Prod.mk.inj (Option.some.inj hclose)
    rw [decodeLoop_pass _ _ _ _ hcol, hcollect]
    suffices hnext : Follows (store dx (chunk p col n)) t tail
        (openNext (decodeLoop accept p bp fuel) (store dx (chunk p col n))
          (findSeparator p bp (col + n))) by
      have hafter := (follows_after hnext hdata).of_sameFilter (store_sameFilter dx _)
      rw [hcontent] at hafter
      exact hafter
    by_cases hend : col + n = 42
    · -- the search reads behind the packet
      have hends : EndsWithBlock (.data a size got) (p.buffer.drop col) := by
        have hless : got.length + (p.buffer.drop col).dropLast.length < size := by
          rw [List.length_dropLast]
          omega
        rw [EndsWithBlock, (data_gathers a size).run_part hless]
        dsimp only
        rw [List.length_append, List.length_dropLast]
        omega
      have hfill := h.behind hends
      rw [hend, drop_all, run_nil] at htail
      obtain ⟨rfl, rfl⟩ := Prod.mk.inj (Option.some.inj htail)
      have hsearch : findSeparator p bp (col + n) = .done := by
        rw [hend, findSeparator, if_neg (by decide), skipFillers, byte_behind, if_pos hfill,
          if_pos (by decide)]
      rw [hsearch]
      exact follows_end hdone
    · exact openNext_follows continues (by omega) (by omega) (by omega) (by omega)
        (chunk_append p col n) hfirst htail hdone

/-- The loop keeps up with the parser from any place in a packet. The induction
is on the remaining passes, each of which consumes a byte at least. -/
theorem decodeLoop_follows (p : Packet) (bp fuel : Nat) (hfuel : 42 - col < fuel) (ha : Agrees dx s)
    (h : Readable p bp col s t out) :
    Follows dx t out (decodeLoop accept p bp fuel col dx) := by
  induction fuel generalizing col dx s out with
  | zero => omega
  | succ fuel ih =>
    have hhigh := h.high
    by_cases hend : col = 42
    · subst hend
      have hparsed := h.parsed
      rw [drop_all, run_nil] at hparsed
      obtain ⟨rfl, rfl⟩ := Prod.mk.inj (Option.some.inj hparsed)
      rw [decodeLoop_end]
      exact follows_end ha
    have hcol : col < 42 := by omega
    have continues : Continues p bp fuel col s t := by
      intro next r m first rest bytes hlt hle hsplit hfirst hrest hr
      rcases h.advance hlt hle hsplit hfirst hrest with rfl | hread
      · rw [drop_all, run_nil] at hrest
        obtain ⟨rfl, rfl⟩ := Prod.mk.inj (Option.some.inj hrest)
        rw [decodeLoop_end]
        exact follows_end hr
      · exact ih (by omega) hr hread
    cases s with
    | gap => exact gap_follows continues ha h hcol
    | header got => exact header_follows continues ha h hcol
    | data a size got => exact data_follows continues ha h hcol

end PfcStream
