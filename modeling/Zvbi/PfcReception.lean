import Zvbi.PfcStream

/-!
# Error-free reception of a Page Function Clear stream

A page is transmitted as a header, which announces the number of packets and
has a continuity index, and packets numbered from one. The reception described
here has every packet of the page in order, a block pointer that is right where
the reader needs it, and payloads the parser accepts.

Two things keep the demultiplexer from delivering just the blocks of the
parser. It passes over blocks without data, and after a block which ends with
its packet it looks for the next separator behind the packet. The second is
kept out of the results by a condition on the byte found there.
-/

namespace PfcReception
open Hamming PfcDemux PfcStream StreamMachine

def word (p : Packet) (i : Nat) : Option Nat :=
  if vbiUnham8 (p.byte i) < 0 ∨ vbiUnham8 (p.byte (i + 1)) < 0 then none
  else some (vbiUnham8 (p.byte i) + vbiUnham8 (p.byte (i + 1)) * 16).toNat

structure Reception where
  /-- The next continuity index, once there was a page header. -/
  ci : Option Nat
  packet : Nat
  nPackets : Nat
  parser : Parser
  deriving DecidableEq

def start : Reception := ⟨none, 0, 0, .gap⟩

def receiveHeader (pgno stream : Nat) (r : Reception) (p : Packet) (magazine : Nat) :
    Option Reception := do
  let page ← word p 2
  let low ← word p 4
  let high ← word p 6
  let subno := low + high * 256
  if magazine + page = pgno ∧ subno / 256 % 16 = stream ∧ announced subno ≤ 25 ∧
      (r.ci = none ∨ r.ci = some (subno % 16)) then
    some ⟨some ((subno % 16 + 1) % 16), 1, announced subno, r.parser⟩
  else
    none

instance (bytes : List UInt8) : Decidable (Fillers bytes) :=
  inferInstanceAs (Decidable (∀ c ∈ bytes, vbiUnham8 c = fillerByte))

instance (p : Packet) (bp : Nat) : Decidable (Points p bp) :=
  inferInstanceAs (Decidable (ite _ _ _))

def PointerValid (s : Parser) (p : Packet) : Prop :=
  0 ≤ vbiUnham8 (p.byte 2) ∧ vbiUnham8 (p.byte 2) ≤ 13 ∧
    (s = .gap → Points p (vbiUnham8 (p.byte 2) * 3).toNat)

instance (s : Parser) (p : Packet) : Decidable (PointerValid s p) :=
  inferInstanceAs (Decidable (_ ∧ _ ∧ (_ → _)))

def FillerBehind (s : Parser) (p : Packet) : Prop :=
  EndsWithBlock s p.payload → vbiUnham8 p.behind = fillerByte

instance (s : Parser) (p : Packet) : Decidable (FillerBehind s p) :=
  inferInstanceAs (Decidable (_ → _))

/-- An error-free packet of the page, in order. Packets above 25 carry no
payload of the stream. -/
def receive (pgno stream : Nat) (r : Reception) (p : Packet) : Option (Reception × List Block) :=
  match word p 0 with
  | none => none
  | some pmag =>
    if pmag / 8 = 0 then
      (receiveHeader pgno stream r p (magazineOf pmag)).map fun t => (t, [])
    else if magazineOf pmag ≠ pgno / 256 * 256 then
      none
    else if pmag / 8 > 25 then
      some (r, [])
    else if pmag / 8 = r.packet ∧ pmag / 8 ≤ r.nPackets ∧ PointerValid r.parser p ∧
        FillerBehind r.parser p then
      (run step r.parser p.payload).map fun t => ({ r with packet := pmag / 8 + 1, parser := t.1 }, t.2)
    else
      none

/-- The payload bytes a packet adds to the stream. -/
def carried (p : Packet) : List UInt8 :=
  match word p 0 with
  | none => []
  | some pmag => if pmag / 8 = 0 ∨ pmag / 8 > 25 then [] else p.payload

variable {p : Packet} {pgno : Nat} {r t : Reception} {out : List Block} {dx : Demux}

variable {stream i w pmag : Nat} {packets : List Packet} {s : Parser}

theorem receiveHeader_keeps_parse {magazine : Nat}
    (h : receiveHeader pgno stream r p magazine = some t) : t.parser = r.parser := by
  simp only [receiveHeader, Option.bind_eq_bind, Option.bind_eq_some_iff] at h
  obtain ⟨page, hpage, low, hlow, high, hhigh, h⟩ := h
  split at h
  · rw [← Option.some.inj h]
  · cases h

/-- Packets are a division of the stream and nothing else. -/
theorem receive_parses (h : receive pgno stream r p = some (t, out)) :
    run step r.parser (carried p) = some (t.parser, out) := by
  rw [receive] at h
  rw [carried]
  cases hw : word p 0 with
  | none => simp only [hw, reduceCtorEq] at h
  | some pmag =>
    simp only [hw] at h ⊢
    by_cases hhead : pmag / 8 = 0
    · rw [if_pos hhead] at h
      obtain ⟨u, hu, heq⟩ := Option.map_eq_some_iff.mp h
      obtain ⟨rfl, rfl⟩ := Prod.mk.inj heq
      rw [if_pos (Or.inl hhead), run_nil, receiveHeader_keeps_parse hu]
    · rw [if_neg hhead] at h
      by_cases hmag : magazineOf pmag ≠ pgno / 256 * 256
      · rw [if_pos hmag] at h
        cases h
      rw [if_neg hmag] at h
      by_cases hhigh : pmag / 8 > 25
      · rw [if_pos hhigh] at h
        obtain ⟨rfl, rfl⟩ := Prod.mk.inj (Option.some.inj h)
        rw [if_pos (Or.inr hhigh), run_nil]
      · rw [if_neg hhigh] at h
        rw [if_neg (by omega)]
        split at h
        · obtain ⟨u, hu, heq⟩ := Option.map_eq_some_iff.mp h
          obtain ⟨rfl, rfl⟩ := Prod.mk.inj heq
          exact hu
        · cases h

theorem receive_run_parses (h : run (receive pgno stream) r packets = some (t, out)) :
    run step r.parser (packets.flatMap carried) = some (t.parser, out) := by
  induction packets generalizing r out with
  | nil =>
    obtain ⟨rfl, rfl⟩ := Prod.mk.inj (Option.some.inj h)
    rfl
  | cons p ps ih =>
    obtain ⟨m, first, rest, hm, hrest, rfl⟩ := run_cons_inv h
    rw [List.flatMap_cons]
    exact run_append (receive_parses hm) (ih hrest)

theorem word_eq (h : word p i = some w) :
    vbiUnham16p (p.byte i) (p.byte (i + 1)) = (w : Int) := by
  obtain ⟨hneg, hsum⟩ := vbiUnham16p_spec (p.byte i) (p.byte (i + 1))
  rw [word] at h
  by_cases hbad : vbiUnham8 (p.byte i) < 0 ∨ vbiUnham8 (p.byte (i + 1)) < 0
  · rw [if_pos hbad] at h
    cases h
  · rw [if_neg hbad] at h
    have hw := Option.some.inj h
    have hpos : 0 ≤ vbiUnham16p (p.byte i) (p.byte (i + 1)) := by
      by_contra hlt
      exact hbad (hneg.mp (by omega))
    rw [hsum hpos, ← hw]
    omega

theorem word_lt (h : word p i = some w) : w < 256 := by
  have hle := vbiUnham16p_le (p.byte i) (p.byte (i + 1))
  rw [word_eq h] at hle
  omega

theorem magazineOf_cases (pmag : Nat) : ∃ m, m < 9 ∧ magazineOf pmag = m * 256 := by
  by_cases h : pmag % 8 = 0
  · exact ⟨8, by decide, if_pos h⟩
  · exact ⟨pmag % 8, by omega, if_neg h⟩

/-- The page number is put together with a bitwise or. -/
theorem magazine_lor {page : Nat} (h : page < 256) :
    Int.lor (magazineOf pmag) page = ((magazineOf pmag + page : Nat) : Int) := by
  obtain ⟨m, -, hm⟩ := magazineOf_cases pmag
  have hor : m * 256 ||| page = m * 256 + page := by
    rw [← Nat.shiftLeft_eq m 8, Nat.shiftLeft_add_eq_or_of_lt h]
  rw [hm, ← hor]
  rfl

theorem magazine_xor : ∀ (m : Fin 9) (page : Fin 256),
    (m.val * 256 ^^^ (m.val * 256 + page.val)) &&& 0xF00 = 0 := by
  decide +kernel

theorem same_magazine (h : magazineOf pmag = pgno / 256 * 256) :
    (magazineOf pmag ^^^ pgno) &&& 0xF00 = 0 := by
  obtain ⟨m, hm, heq⟩ := magazineOf_cases pmag
  have hdiv : pgno = m * 256 + pgno % 256 := by omega
  rw [heq, hdiv]
  exact magazine_xor ⟨m, hm⟩ ⟨pgno % 256, Nat.mod_lt _ (by decide)⟩

structure Tracks (dx : Demux) (r : Reception) : Prop where
  ci : dx.ci = r.ci.getD 256
  packet : 0 < r.nPackets → dx.packet = r.packet
  nPackets : dx.nPackets = r.nPackets
  parser : Agrees dx r.parser
  fresh : r.ci = none → r.parser = .gap ∧ r.nPackets = 0

theorem init_tracks (pgno stream : Nat) : Tracks (init pgno stream) start :=
  ⟨rfl, fun h => absurd h (Nat.lt_irrefl 0), rfl, rfl, fun _ => ⟨rfl, rfl⟩⟩

structure Delivers (dx : Demux) (t : Reception) (out : List Block) (o : Outcome) : Prop where
  ok : o.ok = true
  tracks : Tracks o.dx t
  pgno : o.dx.block.pgno = dx.block.pgno
  stream : o.dx.block.stream = dx.block.stream
  delivered : o.delivered.map content = out.filter fun b => b.data ≠ []

theorem agrees_header (h : Agrees dx s) (ci packet n : Nat) :
    Agrees { dx with ci := ci, packet := packet, nPackets := n } s := by
  cases s with
  | gap => exact h
  | header got => exact ⟨h.1, h.2.part, h.2.position, h.2.missing, h.2.bytes⟩
  | data a size got =>
    exact ⟨h.1, h.2.1, h.2.2.1, h.2.2.2.part, h.2.2.2.position, h.2.2.2.missing, h.2.2.2.bytes⟩

theorem feedHeader_delivers (htracks : Tracks dx r)
    (h : receiveHeader dx.block.pgno dx.block.stream r p (magazineOf pmag) = some t) :
    Delivers dx t [] (feedHeader dx p (magazineOf pmag)) := by
  simp only [receiveHeader, Option.bind_eq_bind, Option.bind_eq_some_iff] at h
  obtain ⟨page, hpage, low, hlow, high, hhigh, h⟩ := h
  by_cases hall : magazineOf pmag + page = dx.block.pgno ∧
      (low + high * 256) / 256 % 16 = dx.block.stream ∧ announced (low + high * 256) ≤ 25 ∧
      (r.ci = none ∨ r.ci = some ((low + high * 256) % 16))
  swap
  · rw [if_neg hall] at h
    cases h
  rw [if_pos hall] at h
  obtain ⟨hpgno, hstream, hcount, hci⟩ := hall
  obtain rfl := Option.some.inj h
  have hsubno : (low : Int) + (high : Int) * 256 = ((low + high * 256 : Nat) : Int) := by
    push_cast
    rfl
  have hfeed : feedHeader dx p (magazineOf pmag) = ⟨{ (if (low + high * 256) % 16 ≠ dx.ci
      then reset dx else dx) with
      ci := ((low + high * 256) % 16 + 1) % 16
      packet := 1
      nPackets := announced (low + high * 256) }, [], true⟩ := by
    simp only [feedHeader, word_eq hpage, word_eq hlow, word_eq hhigh, magazine_lor (word_lt hpage),
      hpgno, hsubno, Int.toNat_natCast, hstream]
    rw [if_neg (by omega), if_neg (by simp), if_neg (by omega), if_neg (by simp)]
  rw [hfeed]
  rcases hci with hnone | hsome
  · -- the first header resets a demultiplexer which holds nothing
    obtain ⟨hgap, -⟩ := htracks.fresh hnone
    have hne : (low + high * 256) % 16 ≠ dx.ci := by
      rw [htracks.ci, hnone]
      simp only [Option.getD_none]
      omega
    rw [if_pos hne]
    refine ⟨rfl, ⟨rfl, fun _ => rfl, rfl, ?_, fun habs => ?_⟩, rfl, rfl, rfl⟩
    · dsimp only
      rw [hgap]
      rfl
    · cases habs
  · have heq : ¬ (low + high * 256) % 16 ≠ dx.ci := by
      rw [htracks.ci, hsome]
      simp
    rw [if_neg heq]
    refine ⟨rfl, ⟨rfl, fun _ => rfl, rfl, agrees_header htracks.parser _ _ _, fun habs => ?_⟩,
      rfl, rfl, rfl⟩
    cases habs

theorem decode_delivers {n : Nat} (htracks : Tracks dx r) (hcount : 0 < r.nPackets)
    (hpointer : PointerValid r.parser p) (hbehind : FillerBehind r.parser p)
    (hrun : run step r.parser p.payload = some (s, out)) :
    Delivers dx { r with packet := n, parser := s } out
      (decode accept { dx with packet := n } p) := by
  obtain ⟨hlow, hhigh, hpoints⟩ := hpointer
  have hread : Readable p (vbiUnham8 (p.byte 2) * 3).toNat 3 r.parser s out :=
    ⟨Nat.le_refl 3, by decide, fun _ => hpoints, hbehind, hrun⟩
  have hagrees := agrees_header htracks.parser dx.ci n dx.nPackets
  obtain ⟨hok, hafter, hsame, hout⟩ := decodeLoop_follows p (vbiUnham8 (p.byte 2) * 3).toNat 40
    (by decide) hagrees hread
  have hdecode : decode accept { dx with packet := n } p =
      decodeLoop accept p (vbiUnham8 (p.byte 2) * 3).toNat 40 3 { dx with packet := n } := by
    rw [decode, if_neg (by omega)]
  rw [hdecode]
  refine ⟨hok, ⟨?_, fun _ => hsame.packet, ?_, hafter, fun habs => ?_⟩, hsame.pgno, hsame.stream,
    hout⟩
  · exact hsame.ci.trans htracks.ci
  · exact hsame.nPackets.trans htracks.nPackets
  · have hzero := (htracks.fresh habs).2
    omega

/-- Every packet of an error-free reception delivers the blocks which end in
it. -/
theorem feed_delivers (htracks : Tracks dx r)
    (h : receive dx.block.pgno dx.block.stream r p = some (t, out)) :
    Delivers dx t out (feed accept dx p) := by
  rw [receive] at h
  cases hw : word p 0 with
  | none =>
    simp only [hw] at h
    cases h
  | some pmag =>
    simp only [hw] at h
    have hpmag : vbiUnham16p (p.byte 0) (p.byte 1) = (pmag : Int) := word_eq hw
    simp only [feed, hpmag, Int.toNat_natCast]
    rw [if_neg (by omega)]
    by_cases hhead : pmag / 8 = 0
    · rw [if_pos hhead] at h ⊢
      obtain ⟨u, hu, heq⟩ := Option.map_eq_some_iff.mp h
      obtain ⟨rfl, rfl⟩ := Prod.mk.inj heq
      exact feedHeader_delivers htracks hu
    rw [if_neg hhead] at h ⊢
    by_cases hmag : magazineOf pmag ≠ dx.block.pgno / 256 * 256
    · rw [if_pos hmag] at h
      cases h
    have hours : ¬ (magazineOf pmag ^^^ dx.block.pgno) &&& 0xF00 ≠ 0 := by
      rw [same_magazine (not_not.mp hmag)]
      decide
    rw [if_neg hmag] at h
    rw [if_neg hours]
    by_cases hhigh : pmag / 8 > 25
    · rw [if_pos hhigh] at h
      obtain ⟨rfl, rfl⟩ := Prod.mk.inj (Option.some.inj h)
      have hsame : Delivers dx r [] ⟨dx, [], true⟩ := ⟨rfl, htracks, rfl, rfl, rfl⟩
      split
      · exact hsame
      · exact hsame
    rw [if_neg hhigh] at h
    split at h
    · rename_i hbody
      obtain ⟨hnumber, hcount, hpointer, hbehind⟩ := hbody
      obtain ⟨u, hu, heq⟩ := Option.map_eq_some_iff.mp h
      obtain ⟨rfl, rfl⟩ := Prod.mk.inj heq
      have hpositive : 0 < r.nPackets := by omega
      have hpacket := htracks.packet hpositive
      rw [if_neg (by rw [htracks.nPackets]; omega), if_neg hhigh,
        if_neg (by rw [htracks.nPackets]; omega)]
      exact decode_delivers htracks hpositive hpointer hbehind hu
    · cases h

theorem feedAll_delivers (htracks : Tracks dx r)
    (h : run (receive dx.block.pgno dx.block.stream) r packets = some (t, out)) :
    (feedAll accept dx packets).2.map content = out.filter fun b => b.data ≠ [] := by
  induction packets generalizing dx r out with
  | nil =>
    obtain ⟨rfl, rfl⟩ := Prod.mk.inj (Option.some.inj h)
    rfl
  | cons p ps ih =>
    obtain ⟨m, first, rest, hm, hrest, rfl⟩ := run_cons_inv h
    have hfeed := feed_delivers htracks hm
    rw [← hfeed.pgno, ← hfeed.stream] at hrest
    have htail := ih hfeed.tracks hrest
    rw [List.filter_append, ← hfeed.delivered, ← htail, ← List.map_append]
    rfl

/-- The client gets the blocks of the stream with data, however packets and
pages divide it, and the demultiplexer never leaves its block buffer. -/
theorem pfc_delivers_stream (pgno stream : Nat) (packets : List Packet) {r : Reception}
    {blocks : List Block} (h : run (receive pgno stream) start packets = some (r, blocks)) :
    run step .gap (packets.flatMap carried) = some (r.parser, blocks) ∧
      (feedAll accept (init pgno stream) packets).2.map content =
        blocks.filter (fun b => b.data ≠ []) ∧
      ∀ k, Bounded (feedAll accept (init pgno stream) (packets.take k)).1 :=
  ⟨receive_run_parses h, feedAll_delivers (init_tracks pgno stream) h,
    fun k => feedAll_bounded accept (init_bounded pgno stream) (packets.take k)⟩

def packetOf (nibbles : List (Fin 16)) (bytes : List UInt8) (behind : UInt8) : Packet where
  buffer := ((nibbles.map vbiHam8 ++ bytes) ++ List.replicate 42 (vbiHam8 3)).take 42
  length_eq := by
    simp only [List.length_take, List.length_append, List.length_replicate]
    omega
  behind := behind

/-- Header and first packet of page 1DF, the second block without data. -/
def twoBlocks : List Packet :=
  [packetOf [1, 0, 15, 13, 0, 1, 0, 0] [] 0,
    packetOf [9, 0, 0, 12, 1, 4, 0, 0] ([0xAA, 0xBB] ++ [12, 2, 0, 0, 0].map vbiHam8) 0]

theorem pfc_delivers_two_blocks :
    run step .gap (twoBlocks.flatMap carried) = some (.gap, [⟨1, [0xAA, 0xBB]⟩, ⟨2, []⟩]) ∧
      (feedAll accept (init 0x1DF 0) twoBlocks).2.map content =
        [⟨1, [0xAA, 0xBB]⟩, ⟨2, []⟩].filter (fun b => b.data ≠ []) ∧
      ∀ k, Bounded (feedAll accept (init 0x1DF 0) (twoBlocks.take k)).1 :=
  pfc_delivers_stream 0x1DF 0 twoBlocks (r := ⟨some 1, 2, 1, .gap⟩) (by decide +kernel)

/-- A full packet of one block, and the beginning of another block. -/
def fullPacket (behind : UInt8) : List Packet :=
  [packetOf [1, 0, 15, 13, 0, 2, 0, 0] [] 0,
    packetOf [9, 0, 0, 12, 1, 4, 4, 0] (List.replicate 34 0xAA) behind,
    packetOf [1, 1, 0, 12, 2, 4, 0, 0] [0xAA, 0xBB] 0]

/-- Blocks without data are not delivered, and a block which ends with its
packet can cost the next one, depending on what follows the packet in memory. -/
theorem pfc_drops_blocks :
    run (receive 0x1DF 0) start twoBlocks =
        some (⟨some 1, 2, 1, .gap⟩, [⟨1, [0xAA, 0xBB]⟩, ⟨2, []⟩]) ∧
      (feedAll accept (init 0x1DF 0) twoBlocks).2.map content ≠ [⟨1, [0xAA, 0xBB]⟩, ⟨2, []⟩] ∧
      (feedAll accept (init 0x1DF 0) (fullPacket 0)).2.map content ≠
        (feedAll accept (init 0x1DF 0) (fullPacket (vbiHam8 3))).2.map content := by
  decide +kernel

end PfcReception
