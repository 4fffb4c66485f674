import Mathlib.Data.List.Perm.Basic
import Zvbi.MotLinks

/-!
# The packets of the magazine organization table

Each entry of the look-up tables belongs to one packet. Packets 1 to 8 have two rows of ten
decimal pages, packets 9 to 14 the last six pages of three rows, or of the last one. What
packets 9 to 13 store besides is shown to be the only difference.
-/

namespace MotTables
open MotLinks

def owner (e : Nat) : Nat := if e % 16 < 10 then e / 32 + 1 else e / 48 + 9

def place (e : Nat) : Nat :=
  if e % 16 < 10 then e / 16 % 2 * 10 + e % 16 else e / 16 % 3 * 6 + (e % 16 - 10)

def Owns (packet e : Nat) : Prop := e < 256 ∧ owner e = packet

instance (packet e : Nat) : Decidable (Owns packet e) := inferInstanceAs (Decidable (_ ∧ _))

def excess (packet : Nat) : List (Nat × Nat) :=
  if 9 ≤ packet ∧ packet ≤ 13 then [(18, 48 * (packet - 8)), (19, 48 * (packet - 8) + 1)] else []

theorem entries_eq : ∀ packet < 15, 1 ≤ packet →
    entries packet = ((List.range 256).filter (Owns packet)).map (fun e => (place e, e)) ++
      excess packet := by
  decide +kernel

theorem excess_not_owned : ∀ packet < 14, 9 ≤ packet →
    ¬ Owns packet (48 * (packet - 8)) ∧ ¬ Owns packet (48 * (packet - 8) + 1) := by
  decide +kernel

def numbers (raw : Raw) (i : Nat) : Int × Int :=
  (nibble (raw (2 * i)) % 8, nibble (raw (2 * i + 1)) % 8)

def lut (mag : Magazine) (e : Nat) : Int × Int := (mag.popLut e, mag.drcsLut e)

theorem storeEntry_lut (raw : Raw) (mag : Magazine) (i e e' : Nat) :
    lut (storeEntry raw mag (i, e)) e' =
      if e' = e ∧ goodPair raw i = true then numbers raw i else lut mag e' := by
  by_cases hgood : goodPair raw i = true
  · rw [storeEntry, if_pos hgood]
    by_cases he : e' = e
    · subst he
      rw [if_pos ⟨rfl, hgood⟩, lut]
      dsimp only
      rw [Function.update_self, Function.update_self]
      rfl
    · rw [if_neg (fun h => he h.1), lut]
      dsimp only
      rw [Function.update_of_ne he, Function.update_of_ne he]
      rfl
  · rw [storeEntry, if_neg hgood, if_neg (fun h => hgood h.2)]

/-- Entries are stored from their own pairs of bytes. -/
theorem storeEntries_lut (raw : Raw) (es : List Nat) (mag : Magazine) (e : Nat) :
    lut ((es.map fun e => (place e, e)).foldl (storeEntry raw) mag) e =
      if e ∈ es ∧ goodPair raw (place e) = true then numbers raw (place e) else lut mag e := by
  induction es generalizing mag with
  | nil => rw [if_neg (fun h => absurd h.1 List.not_mem_nil)]; rfl
  | cons e' es ih =>
    rw [List.map_cons, List.foldl_cons, ih, storeEntry_lut]
    by_cases hgood : goodPair raw (place e) = true
    · by_cases hrest : e ∈ es
      · rw [if_pos ⟨hrest, hgood⟩, if_pos ⟨List.mem_cons_of_mem _ hrest, hgood⟩]
      · rw [if_neg (fun h => hrest h.1)]
        by_cases he : e = e'
        · subst he
          rw [if_pos ⟨rfl, hgood⟩, if_pos ⟨List.mem_cons_self, hgood⟩]
        · rw [if_neg (fun h => he h.1),
            if_neg (fun h => (List.mem_cons.mp h.1).elim he hrest)]
    · have hother : ¬ (e = e' ∧ goodPair raw (place e') = true) := by
        rintro ⟨rfl, h⟩
        exact hgood h
      rw [if_neg (fun h => hgood h.2), if_neg hother, if_neg (fun h => hgood h.2)]

/-- What the tables should contain after a packet: its entries are changed unless there is an
error in their bytes. -/
def assigned (mag : Magazine) (raw : Raw) (packet e : Nat) : Int × Int :=
  if Owns packet e ∧ goodPair raw (place e) = true then numbers raw (place e) else lut mag e

variable {mag : Magazine} {packet : Nat} {raw : Raw}

variable {e : Nat} {mag' : Magazine} {p q : MotPacket}

theorem assigned_other (h : ¬ Owns packet e) : assigned mag raw packet e = lut mag e :=
  if_neg fun hown => h hown.1

theorem assigned_congr (h : lut mag e = lut mag' e) (raw : Raw) (packet : Nat) :
    assigned mag raw packet e = assigned mag' raw packet e := by
  rw [assigned, assigned, h]

theorem parseMot_lut (mag : Magazine) (raw : Raw) (hpos : 1 ≤ packet) (hle : packet ≤ 14)
    (e : Nat) :
    lut (parseMot mag raw packet) e =
      lut ((excess packet).foldl (storeEntry raw)
        (((List.range 256).filter (Owns packet)).map (fun e => (place e, e))
          |>.foldl (storeEntry raw) mag)) e := by
  rw [parseMot, if_pos ⟨hpos, hle⟩, entries_eq packet (Nat.lt_succ_of_le hle) hpos,
    List.foldl_append]

/-- The entries of the packet, before the two others are stored. -/
theorem own_lut (mag : Magazine) (raw : Raw) (packet e : Nat) :
    lut (((List.range 256).filter (Owns packet)).map (fun e => (place e, e))
      |>.foldl (storeEntry raw) mag) e = assigned mag raw packet e := by
  rw [storeEntries_lut, assigned]
  have hmem : e ∈ (List.range 256).filter (Owns packet) ↔ Owns packet e := by
    rw [List.mem_filter, List.mem_range, decide_eq_true_iff]
    exact ⟨And.right, fun h => ⟨h.1, h⟩⟩
  simp only [hmem]

/-- The packet changes its own entries only. -/
def Exact (raw : Raw) (packet : Nat) : Prop :=
  ∀ mag e, lut (parseMot mag raw packet) e = assigned mag raw packet e

/-- The packet has no pair of bytes without errors which is stored in an entry of another
packet. -/
def Spared (raw : Raw) (packet : Nat) : Prop :=
  9 ≤ packet → packet ≤ 13 → goodPair raw 18 = false ∧ goodPair raw 19 = false

theorem exact_of_spared (hpos : 1 ≤ packet) (hle : packet ≤ 14) (h : Spared raw packet) :
    Exact raw packet := by
  intro mag e
  rw [parseMot_lut mag raw hpos hle, ← own_lut]
  by_cases hrow : 9 ≤ packet ∧ packet ≤ 13
  · obtain ⟨hfirst, hsecond⟩ := h hrow.1 hrow.2
    rw [excess, if_pos hrow, List.foldl_cons, List.foldl_cons, List.foldl_nil, storeEntry_lut,
      storeEntry_lut, if_neg (fun h => Bool.false_ne_true (hsecond ▸ h.2)),
      if_neg (fun h => Bool.false_ne_true (hfirst ▸ h.2))]
  · rw [excess, if_neg hrow, List.foldl_nil]

/-- An entry which was never received becomes a number. -/
theorem spared_of_exact (h : Exact raw packet) : Spared raw packet := by
  intro hlow hhigh
  obtain ⟨hfirst, hsecond⟩ := excess_not_owned packet (Nat.lt_succ_of_le hhigh) hlow
  have hstored : ∀ e, lut (parseMot ttxMagazineInit raw packet) e =
      if e = 48 * (packet - 8) + 1 ∧ goodPair raw 19 = true then numbers raw 19
      else if e = 48 * (packet - 8) ∧ goodPair raw 18 = true then numbers raw 18
      else assigned ttxMagazineInit raw packet e := by
    intro e
    rw [parseMot_lut _ raw (by omega) (by omega), excess, if_pos ⟨hlow, hhigh⟩, List.foldl_cons,
      List.foldl_cons, List.foldl_nil, storeEntry_lut, storeEntry_lut, own_lut]
  have hinit : ∀ i, numbers raw i ≠ lut ttxMagazineInit 0 := by
    intro i heq
    have hnumber := congrArg Prod.fst heq
    change ((nibble (raw (2 * i)) % 8 : Nat) : Int) = -1 at hnumber
    omega
  constructor
  · refine Bool.eq_false_iff.mpr fun hgood => hinit 18 ?_
    have hentry := h ttxMagazineInit (48 * (packet - 8))
    rw [hstored, if_neg (by omega), if_pos ⟨rfl, hgood⟩, assigned_other hfirst] at hentry
    exact hentry
  · refine Bool.eq_false_iff.mpr fun hgood => hinit 19 ?_
    have hentry := h ttxMagazineInit (48 * (packet - 8) + 1)
    rw [hstored, if_pos ⟨rfl, hgood⟩, assigned_other hsecond] at hentry
    exact hentry

theorem parseMot_links (mag : Magazine) (raw : Raw) (hpos : 1 ≤ packet) (hle : packet ≤ 14) :
    (parseMot mag raw packet).popLink = mag.popLink ∧
      (parseMot mag raw packet).drcsLink = mag.drcsLink := by
  rw [parseMot, if_pos ⟨hpos, hle⟩]
  have hstore : ∀ mag entry, ((storeEntry raw mag entry).popLink,
      (storeEntry raw mag entry).drcsLink) = (mag.popLink, mag.drcsLink) := by
    intro mag entry
    rw [storeEntry]
    split
    · rfl
    · rfl
  have hlinks := foldl_lut (storeEntry raw) (fun mag => (mag.popLink, mag.drcsLink)) hstore
    (entries packet) mag
  exact Prod.mk.inj hlinks

theorem magazine_eq (hlut : ∀ e, lut mag e = lut mag' e) (hpop : mag.popLink = mag'.popLink)
    (hdrcs : mag.drcsLink = mag'.drcsLink) : mag = mag' := by
  obtain ⟨popLut, drcsLut, popLink, drcsLink⟩ := mag
  obtain ⟨popLut', drcsLut', popLink', drcsLink'⟩ := mag'
  obtain rfl : popLut = popLut' := funext fun e => congrArg Prod.fst (hlut e)
  obtain rfl : drcsLut = drcsLut' := funext fun e => congrArg Prod.snd (hlut e)
  rw [Magazine.mk.injEq]
  exact ⟨rfl, rfl, hpop, hdrcs⟩

def IsTable (p : MotPacket) : Prop := 1 ≤ p.packet ∧ p.packet ≤ 14

/-- Packets with entries of their own change the tables independently. -/
theorem parseMot_comm (mag : Magazine) (hp : IsTable p) (hq : IsTable q) (hne : p.packet ≠ q.packet)
    (hsp : Spared p.raw p.packet) (hsq : Spared q.raw q.packet) :
    parseMot (parseMot mag p.raw p.packet) q.raw q.packet =
      parseMot (parseMot mag q.raw q.packet) p.raw p.packet := by
  have hep := exact_of_spared hp.1 hp.2 hsp
  have heq := exact_of_spared hq.1 hq.2 hsq
  refine magazine_eq (fun e => ?_) ?_ ?_
  · rw [heq, hep]
    by_cases howner : Owns p.packet e
    · have hother : ¬ Owns q.packet e := fun h => hne (howner.2.symm.trans h.2)
      rw [assigned_other hother, hep]
      exact assigned_congr ((heq mag e).trans (assigned_other hother)).symm p.raw p.packet
    · rw [assigned_other howner, heq]
      exact assigned_congr ((hep mag e).trans (assigned_other howner)) q.raw q.packet
  · rw [(parseMot_links _ q.raw hq.1 hq.2).1, (parseMot_links _ p.raw hp.1 hp.2).1,
      (parseMot_links _ p.raw hp.1 hp.2).1, (parseMot_links _ q.raw hq.1 hq.2).1]
  · rw [(parseMot_links _ q.raw hq.1 hq.2).2, (parseMot_links _ p.raw hp.1 hp.2).2,
      (parseMot_links _ p.raw hp.1 hp.2).2, (parseMot_links _ q.raw hq.1 hq.2).2]

def Repeats (packets : List MotPacket) : Prop :=
  ∀ p ∈ packets, ∀ q ∈ packets, p.magazine = q.magazine → p.packet = q.packet → p.raw = q.raw

theorem decodePacket_comm (vbi : Decoder) (hp : IsTable p) (hq : IsTable q)
    (hrepeat : p.magazine = q.magazine → p.packet = q.packet → p.raw = q.raw)
    (hsp : Spared p.raw p.packet) (hsq : Spared q.raw q.packet) :
    decodePacket (decodePacket vbi p) q = decodePacket (decodePacket vbi q) p := by
  rw [decodePacket, decodePacket, decodePacket, decodePacket]
  dsimp only
  by_cases hmag : p.magazine = q.magazine
  · rw [hmag, Function.update_self, Function.update_self, Function.update_idem,
      Function.update_idem]
    by_cases hpacket : p.packet = q.packet
    · rw [hpacket, hrepeat hmag hpacket]
    · rw [parseMot_comm _ hp hq hpacket hsp hsq]
  · rw [Function.update_of_ne (Ne.symm hmag), Function.update_of_ne hmag,
      Function.update_comm hmag]

/-- Each packet changes its own entries only if and only if those of packets 9 to 13 have an
error in two certain pairs of bytes, and then the order of the packets does not matter. -/
theorem decode_packets {packets : List MotPacket} (h : ∀ p ∈ packets, IsTable p) :
    ((∀ p ∈ packets, Exact p.raw p.packet) ↔ ∀ p ∈ packets, Spared p.raw p.packet) ∧
      ((∀ p ∈ packets, Spared p.raw p.packet) → Repeats packets → ∀ other, packets.Perm other →
        ∀ vbi, packets.foldl decodePacket vbi = other.foldl decodePacket vbi) := by
  refine ⟨⟨fun hexact p hp => spared_of_exact (hexact p hp), fun hspared p hp =>
    exact_of_spared (h p hp).1 (h p hp).2 (hspared p hp)⟩, ?_⟩
  intro hspared hrepeat other hperm vbi
  refine hperm.foldl_eq' (fun p hp q hq vbi => ?_) vbi
  exact decodePacket_comm vbi (h p hp) (h q hq) (hrepeat p hp q hq) (hspared p hp) (hspared q hq)

/-- Packet 2 with number 1 in all its pairs, and packet 9 with errors behind its own pairs. -/
def secondPacket : MotPacket := ⟨1, 2, fun _ => 0x02⟩
def ninthPacket : MotPacket := ⟨1, 9, fun i => if i < 36 then 0x15 else 0x01⟩

theorem decode_packets_two :
    Exact ninthPacket.raw 9 ∧ [secondPacket, ninthPacket].foldl decodePacket reset =
      [ninthPacket, secondPacket].foldl decodePacket reset := by
  have htable : ∀ p ∈ [secondPacket, ninthPacket], IsTable p := by
    unfold IsTable
    decide
  have hspared : ∀ p ∈ [secondPacket, ninthPacket], Spared p.raw p.packet := by
    unfold Spared
    decide +kernel
  have hrepeat : Repeats [secondPacket, ninthPacket] := by
    intro p hp q hq _ hpacket
    simp only [List.mem_cons, List.not_mem_nil, or_false] at hp hq
    rcases hp with rfl | rfl <;> rcases hq with rfl | rfl
    · rfl
    · exact absurd hpacket (by decide)
    · exact absurd hpacket (by decide)
    · rfl
  exact ⟨(decode_packets htable).1.mpr hspared ninthPacket
      (List.mem_cons_of_mem _ (List.mem_singleton_self _)),
    (decode_packets htable).2 hspared hrepeat _ (List.Perm.swap _ _ _) reset⟩

def zeroPacket : MotPacket := ⟨1, 9, fun _ => 0x15⟩

/-- Entry 30, of page 130, belongs to packet 2. Packet 9 changes it too, and the packet which
arrives last wins. -/
theorem packet_nine_overwrites :
    owner 0x30 = 2 ∧
      lut (parseMot ttxMagazineInit zeroPacket.raw 9) 0x30 ≠ lut ttxMagazineInit 0x30 ∧
      lut (([secondPacket, zeroPacket].foldl decodePacket reset).magazines 1) 0x30 = (0, 0) ∧
      lut (([zeroPacket, secondPacket].foldl decodePacket reset).magazines 1) 0x30 = (1, 1) := by
  decide +kernel

end MotTables
