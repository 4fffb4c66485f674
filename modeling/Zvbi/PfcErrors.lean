import Zvbi.PfcDemux

/-!
# Uncorrectable control bytes in a Page Function Clear stream

The page number is joined from two words with a bitwise or, which keeps the
sign of either. Subpage number and structure header are sums of two words, the
second times 256. A negative first word disappears in the sum if the second
word is positive, and the error goes unnoticed.
-/

namespace PfcErrors
open Hamming PfcDemux

def Uncorrectable (b : UInt8) : Prop := vbiUnham8 b < 0

instance (b : UInt8) : Decidable (Uncorrectable b) := inferInstanceAs (Decidable (_ < _))

def Corrupt (a b c d : UInt8) : Prop :=
  Uncorrectable a ∨ Uncorrectable b ∨ Uncorrectable c ∨ Uncorrectable d

instance (a b c d : UInt8) : Decidable (Corrupt a b c d) := inferInstanceAs (Decidable (_ ∨ _))

def Hidden (a b c d : UInt8) : Prop :=
  (Uncorrectable a ∨ Uncorrectable b) ∧ 0 < vbiUnham16p c d

instance (a b c d : UInt8) : Decidable (Hidden a b c d) := inferInstanceAs (Decidable (_ ∧ _))

/-- The sign test on a sum of two words misses exactly the hidden errors. -/
theorem sum_neg_iff {a b c d : UInt8} (corrupt : Corrupt a b c d) :
    vbiUnham16p a b + vbiUnham16p c d * 256 < 0 ↔ ¬ Hidden a b c d := by
  have low := vbiUnham16p_ge a b
  have high := vbiUnham16p_le a b
  have hab := (vbiUnham16p_spec a b).1
  have hcd := (vbiUnham16p_spec c d).1
  simp only [Corrupt, Hidden, Uncorrectable] at corrupt ⊢
  rw [← hab]
  rcases Int.lt_or_le (vbiUnham16p c d) 0 with hneg | hnonneg
  · constructor
    · intro _ hidden
      omega
    · intro _
      omega
  · have hfirst : vbiUnham16p a b < 0 := by
      rw [hab]
      rw [← not_lt, hcd] at hnonneg
      tauto
    constructor
    · intro hsum hidden
      omega
    · intro hnot
      have hzero : ¬ 0 < vbiUnham16p c d := fun h => hnot ⟨hfirst, h⟩
      omega

def address (p : Packet) : Int := vbiUnham16p (p.byte 0) (p.byte 1)

def IsHeader (p : Packet) : Prop := 0 ≤ address p ∧ (address p).toNat / 8 = 0

instance (p : Packet) : Decidable (IsHeader p) := inferInstanceAs (Decidable (_ ∧ _))

def pageNumber (p : Packet) : Int :=
  Int.lor (magazineOf (address p).toNat) (vbiUnham16p (p.byte 2) (p.byte 3))

def subpageNumber (p : Packet) : Int :=
  vbiUnham16p (p.byte 4) (p.byte 5) + vbiUnham16p (p.byte 6) (p.byte 7) * 256

structure OfPage (dx : Demux) (p : Packet) : Prop where
  addressed : 0 ≤ address p
  payload : 1 ≤ (address p).toNat / 8 ∧ (address p).toNat / 8 ≤ 25
  magazine : (magazineOf (address p).toNat ^^^ dx.block.pgno) &&& 0xF00 = 0
  announced : dx.nPackets ≠ 0

structure Expected (dx : Demux) (p : Packet) : Prop extends OfPage dx p where
  next : (address p).toNat / 8 = dx.packet
  within : (address p).toNat / 8 ≤ dx.nPackets

instance (dx : Demux) (p : Packet) : Decidable (OfPage dx p) :=
  decidable_of_iff (0 ≤ address p ∧ (1 ≤ (address p).toNat / 8 ∧ (address p).toNat / 8 ≤ 25) ∧
      (magazineOf (address p).toNat ^^^ dx.block.pgno) &&& 0xF00 = 0 ∧ dx.nPackets ≠ 0)
    ⟨fun h => ⟨h.1, h.2.1, h.2.2.1, h.2.2.2⟩, fun h => ⟨h.1, h.2, h.3, h.4⟩⟩

instance (dx : Demux) (p : Packet) : Decidable (Expected dx p) :=
  decidable_of_iff (OfPage dx p ∧ (address p).toNat / 8 = dx.packet ∧
      (address p).toNat / 8 ≤ dx.nPackets)
    ⟨fun h => ⟨h.1, h.2.1, h.2.2⟩, fun h => ⟨h.1, h.2, h.3⟩⟩

/-- Nothing is collected, and neither a page header nor a packet continues the
stream. -/
def Discarded (dx : Demux) : Prop := dx = reset dx

instance (dx : Demux) : Decidable (Discarded dx) := inferInstanceAs (Decidable (_ = _))

theorem reset_discarded (dx : Demux) : Discarded (reset dx) := rfl

def continuation (p : Packet) (bp : Nat) : Collected → Option (Nat × Demux)
  | .unfinished _ => none
  | .lost _ _ => none
  | .header dx col => some (col, dx)
  | .free dx col _ =>
    match findSeparator p bp col with
    | .found col => some (col, openHeader dx)
    | _ => none

/-- Column and state at the beginning of each pass of the `while` loop. -/
def passes (callback : PfcBlock → Bool) (p : Packet) (bp : Nat) :
    Nat → Nat → Demux → List (Nat × Demux)
  | 0, _, _ => []
  | fuel + 1, col, dx =>
    if col ≥ 42 then
      []
    else
      (col, dx) :: match continuation p bp (collect callback p col dx) with
        | none => []
        | some next => passes callback p bp fuel next.1 next.2

def blockPointer (p : Packet) : Int := vbiUnham8 (p.byte 2) * 3

def passesOf (callback : PfcBlock → Bool) (dx : Demux) (p : Packet) : List (Nat × Demux) :=
  if Expected dx p ∧ ¬ (blockPointer p < 0 ∨ blockPointer p > 39) then
    passes callback p (blockPointer p).toNat 40 3 { dx with packet := (address p).toNat / 8 + 1 }
  else
    []

def completedHeader (p : Packet) (pass : Nat × Demux) : Option (List UInt8) :=
  if 0 < pass.2.left ∧ pass.2.left ≤ 42 - pass.1 ∧ pass.2.block.applicationId < 0 then
    some (store pass.2 ((p.buffer.drop pass.1).take pass.2.left)).block.block
  else
    none

/-- The control bytes which a call reads are not used if they are uncorrectable. -/
structure Guarded (callback : PfcBlock → Bool) (dx : Demux) (p : Packet) : Prop where
  pageNumber : IsHeader p → Uncorrectable (p.byte 2) ∨ Uncorrectable (p.byte 3) →
    Discarded (feed callback dx p).dx
  subcode : IsHeader p → PfcErrors.pageNumber p = dx.block.pgno →
    Corrupt (p.byte 4) (p.byte 5) (p.byte 6) (p.byte 7) → Discarded (feed callback dx p).dx
  blockPointer : OfPage dx p → Uncorrectable (p.byte 2) → Discarded (feed callback dx p).dx
  structureHeader : ∀ pass ∈ passesOf callback dx p, ∀ block ∈ completedHeader p pass,
    Corrupt (block.getD 0 0) (block.getD 1 0) (block.getD 2 0) (block.getD 3 0) →
      (∀ t col, collect callback p pass.1 pass.2 ≠ .header t col) ∧
        Discarded (feed callback dx p).dx

/-- No error is hidden in the header of the page or in a structure header. A
hidden error in a page header is harmless if the decoder waits for a block
anyway and the misread stream number is another one. -/
structure Unhidden (callback : PfcBlock → Bool) (dx : Demux) (p : Packet) : Prop where
  subcode : IsHeader p → PfcErrors.pageNumber p = dx.block.pgno →
    Hidden (p.byte 4) (p.byte 5) (p.byte 6) (p.byte 7) →
      Discarded { dx with nPackets := 0 } ∧
        (subpageNumber p).toNat / 256 % 16 ≠ dx.block.stream
  structureHeader : ∀ pass ∈ passesOf callback dx p, ∀ block ∈ completedHeader p pass,
    ¬ Hidden (block.getD 0 0) (block.getD 1 0) (block.getD 2 0) (block.getD 3 0)

theorem int_lor_neg (m : Nat) {x : Int} (h : x < 0) : Int.lor m x < 0 := by
  cases x with
  | ofNat n => exact absurd h (Int.not_lt.mpr (Int.natCast_nonneg n))
  | negSucc n => exact Int.negSucc_lt_zero _

variable {p : Packet} {dx : Demux}

theorem pageNumber_neg (h : Uncorrectable (p.byte 2) ∨ Uncorrectable (p.byte 3)) :
    PfcErrors.pageNumber p < 0 :=
  int_lor_neg _ ((vbiUnham16p_spec _ _).1.mpr h)

theorem feed_header (callback : PfcBlock → Bool) (dx : Demux) (header : IsHeader p) :
    feed callback dx p = feedHeader dx p (magazineOf (address p).toNat) := by
  have hvalid : ¬ vbiUnham16p (p.byte 0) (p.byte 1) < 0 := Int.not_lt.mpr header.1
  simp only [feed]
  rw [if_neg hvalid]
  exact if_pos header.2

theorem feed_bad_page (callback : PfcBlock → Bool) (dx : Demux) (header : IsHeader p)
    (h : Uncorrectable (p.byte 2) ∨ Uncorrectable (p.byte 3)) :
    Discarded (feed callback dx p).dx := by
  rw [feed_header callback dx header]
  have hneg : Int.lor (magazineOf (address p).toNat) (vbiUnham16p (p.byte 2) (p.byte 3)) < 0 :=
    pageNumber_neg h
  simp only [feedHeader, if_pos hneg]
  exact reset_discarded dx

/-- What a header of the page in reception does. -/
theorem feed_page (callback : PfcBlock → Bool) (dx : Demux) (header : IsHeader p)
    (page : PfcErrors.pageNumber p = dx.block.pgno) :
    subpageNumber p < 0 ∧ (feed callback dx p).dx = reset dx ∨
    0 ≤ subpageNumber p ∧ (subpageNumber p).toNat / 256 % 16 ≠ dx.block.stream ∧
      (feed callback dx p).dx = { dx with nPackets := 0 } ∨
    0 ≤ subpageNumber p ∧ (subpageNumber p).toNat / 256 % 16 = dx.block.stream ∧
      (feed callback dx p).dx.ci < 16 := by
  have hvalid : ¬ (dx.block.pgno : Int) < 0 := by omega
  have hpage : Int.lor (magazineOf (address p).toNat) (vbiUnham16p (p.byte 2) (p.byte 3)) =
    dx.block.pgno := page
  rw [feed_header callback dx header]
  simp only [feedHeader, hpage, if_neg hvalid, ne_eq, not_true_eq_false, if_false]
  rw [← subpageNumber]
  by_cases hneg : subpageNumber p < 0
  · left
    exact ⟨hneg, by rw [if_pos hneg]⟩
  have hnonneg : 0 ≤ subpageNumber p := Int.not_lt.mp hneg
  rw [if_neg hneg]
  by_cases hstream : (subpageNumber p).toNat / 256 % 16 = dx.block.stream
  · right; right
    rw [if_neg (not_not.mpr hstream)]
    exact ⟨hnonneg, hstream, Nat.mod_lt _ (by decide)⟩
  · right; left
    exact ⟨hnonneg, hstream, by rw [if_pos hstream]⟩

/-- A corrupt subpage number is noticed unless the error is hidden. -/
theorem subcode_discarded_iff (callback : PfcBlock → Bool) (dx : Demux) (header : IsHeader p)
    (page : PfcErrors.pageNumber p = dx.block.pgno)
    (corrupt : Corrupt (p.byte 4) (p.byte 5) (p.byte 6) (p.byte 7)) :
    Discarded (feed callback dx p).dx ↔
      (Hidden (p.byte 4) (p.byte 5) (p.byte 6) (p.byte 7) →
        Discarded { dx with nPackets := 0 } ∧
          (subpageNumber p).toNat / 256 % 16 ≠ dx.block.stream) := by
  have hsign : subpageNumber p < 0 ↔ _ := sum_neg_iff corrupt
  rcases feed_page callback dx header page with ⟨hneg, hdx⟩ | ⟨hsub, hstream, hdx⟩ |
    ⟨hsub, hstream, hci⟩
  · constructor
    · intro _ hidden
      exact absurd hidden (hsign.mp hneg)
    · intro _
      rw [hdx]
      exact reset_discarded dx
  · have hidden : Hidden (p.byte 4) (p.byte 5) (p.byte 6) (p.byte 7) := by
      by_contra hnot
      exact absurd (hsign.mpr hnot) (Int.not_lt.mpr hsub)
    rw [hdx]
    constructor
    · intro h _
      exact ⟨h, hstream⟩
    · intro h
      exact (h hidden).1
  · have hidden : Hidden (p.byte 4) (p.byte 5) (p.byte 6) (p.byte 7) := by
      by_contra hnot
      exact absurd (hsign.mpr hnot) (Int.not_lt.mpr hsub)
    constructor
    · intro h
      -- a reset decoder waits for no continuity index
      have h256 : (feed callback dx p).dx.ci = 256 := congrArg Demux.ci h
      omega
    · intro h
      exact absurd hstream (h hidden).2

/-- A packet of the page is decoded if it is the expected one, and otherwise
ends the reception of the page. -/
theorem feed_ofPage (callback : PfcBlock → Bool) (ofPage : OfPage dx p) :
    Expected dx p ∧ feed callback dx p =
        decode callback { dx with packet := (address p).toNat / 8 + 1 } p ∨
    ¬ Expected dx p ∧ feed callback dx p = ⟨reset dx, [], true⟩ := by
  have hvalid : ¬ vbiUnham16p (p.byte 0) (p.byte 1) < 0 := Int.not_lt.mpr ofPage.addressed
  have hpacket : ¬ (vbiUnham16p (p.byte 0) (p.byte 1)).toNat / 8 = 0 := by
    have h := ofPage.payload.1
    simp only [address] at h
    omega
  have hmagazine : ¬ (magazineOf (vbiUnham16p (p.byte 0) (p.byte 1)).toNat ^^^ dx.block.pgno) &&&
      0xF00 ≠ 0 := not_not.mpr ofPage.magazine
  have hstuffing : ¬ (vbiUnham16p (p.byte 0) (p.byte 1)).toNat / 8 > 25 :=
    Nat.not_lt.mpr ofPage.payload.2
  simp only [feed]
  rw [if_neg hvalid, if_neg hpacket, if_neg hmagazine, if_neg ofPage.announced, if_neg hstuffing]
  by_cases hlost : (vbiUnham16p (p.byte 0) (p.byte 1)).toNat / 8 ≠ dx.packet ∨
      (vbiUnham16p (p.byte 0) (p.byte 1)).toNat / 8 > dx.nPackets
  · right
    refine ⟨?_, if_pos hlost⟩
    intro expected
    rcases hlost with hnext | hwithin
    · exact hnext expected.next
    · exact absurd expected.within (Nat.not_le.mpr hwithin)
  · left
    refine ⟨?_, if_neg hlost⟩
    rw [not_or, not_not] at hlost
    exact ⟨ofPage, hlost.1, Nat.not_lt.mp hlost.2⟩

theorem feed_bad_pointer (callback : PfcBlock → Bool) (ofPage : OfPage dx p)
    (h : Uncorrectable (p.byte 2)) : Discarded (feed callback dx p).dx := by
  rcases feed_ofPage callback ofPage with ⟨-, hfeed⟩ | ⟨-, hfeed⟩
  · have hpointer : vbiUnham8 (p.byte 2) * 3 < 0 ∨ vbiUnham8 (p.byte 2) * 3 > 39 := by
      have hneg : vbiUnham8 (p.byte 2) < 0 := h
      omega
    rw [hfeed]
    simp only [decode]
    rw [if_pos hpointer]
    exact reset_discarded _
  · rw [hfeed]
    exact reset_discarded dx

variable {block : List UInt8} {col : Nat} {pass : Nat × Demux}

/-- A pass which completes a structure header ends the call or opens a block. -/
theorem collect_completed (callback : PfcBlock → Bool) {s : Demux}
    (h : completedHeader p (col, s) = some block) :
    ∃ t : Demux, collect callback p col s =
      if structureHeader block < 0 then .lost t []
      else .header (openData t (structureHeader block).toNat) (col + s.left) := by
  simp only [completedHeader] at h
  split at h
  · rename_i hcomplete
    obtain ⟨hleft, hroom, hid⟩ := hcomplete
    have hblock := Option.some.inj h
    have hmin : min s.left (42 - col) = s.left := Nat.min_eq_left hroom
    refine ⟨store s ((p.buffer.drop col).take s.left), ?_⟩
    have hlength : ((p.buffer.drop col).take s.left).length = s.left := by
      rw [List.length_take, List.length_drop, p.length_eq, hmin]
    have hdone : ¬ (store s ((p.buffer.drop col).take s.left)).left > 0 := by
      simp only [store, hlength]
      omega
    have hheader : (store s ((p.buffer.drop col).take s.left)).block.applicationId < 0 := hid
    simp only [collect, if_neg (Nat.ne_of_gt hleft), hmin]
    rw [if_neg hdone, interpret, if_pos hheader, hblock]
  · cases h

theorem decodeLoop_of_mem_passes (callback : PfcBlock → Bool) {bp fuel : Nat}
    (h : pass ∈ passes callback p bp fuel col dx) :
    ∃ rest, (decodeLoop callback p bp fuel col dx).dx =
      (proceed p bp (decodeLoop callback p bp rest) (collect callback p pass.1 pass.2)).dx := by
  induction fuel generalizing col dx with
  | zero => cases h
  | succ fuel ih =>
    rw [passes] at h
    by_cases hcol : col ≥ 42
    · rw [if_pos hcol] at h
      cases h
    rw [if_neg hcol] at h
    rw [decodeLoop, if_neg hcol]
    rcases List.mem_cons.mp h with rfl | hrest
    · exact ⟨fuel, rfl⟩
    cases hc : collect callback p col dx with
    | unfinished t =>
      rw [hc] at hrest
      cases hrest
    | lost t delivered =>
      rw [hc] at hrest
      cases hrest
    | header t next =>
      rw [hc] at hrest
      exact ih hrest
    | free t next delivered =>
      rw [hc] at hrest
      simp only [continuation] at hrest
      simp only [proceed, Outcome.after]
      cases hs : findSeparator p bp next with
      | found start =>
        rw [hs] at hrest
        exact ih hrest
      | done =>
        rw [hs] at hrest
        cases hrest
      | lost =>
        rw [hs] at hrest
        cases hrest

/-- In a pass, a corrupt structure header is noticed unless the error is
hidden, and then the call ends. -/
theorem structureHeader_guarded_iff (callback : PfcBlock → Bool)
    (hpass : pass ∈ passesOf callback dx p) (hblock : completedHeader p pass = some block)
    (corrupt : Corrupt (block.getD 0 0) (block.getD 1 0) (block.getD 2 0) (block.getD 3 0)) :
    ((∀ t col, collect callback p pass.1 pass.2 ≠ .header t col) ∧
        Discarded (feed callback dx p).dx) ↔
      ¬ Hidden (block.getD 0 0) (block.getD 1 0) (block.getD 2 0) (block.getD 3 0) := by
  have hsign : structureHeader block < 0 ↔ _ := sum_neg_iff corrupt
  obtain ⟨t, hcollect⟩ := collect_completed callback hblock
  rw [← hsign]
  constructor
  · intro h
    by_contra hpos
    rw [if_neg hpos] at hcollect
    exact h.1 _ _ hcollect
  · intro hneg
    rw [if_pos hneg] at hcollect
    rw [hcollect]
    refine ⟨fun _ _ h => Collected.noConfusion h, ?_⟩
    rw [passesOf] at hpass
    split at hpass
    · rename_i hcall
      obtain ⟨expected, hpointer⟩ := hcall
      rcases feed_ofPage callback expected.toOfPage with ⟨-, hfeed⟩ | ⟨hnot, -⟩
      · obtain ⟨rest, hloop⟩ := decodeLoop_of_mem_passes callback hpass
        rw [hcollect] at hloop
        rw [hfeed]
        simp only [decode]
        have hpointer' : ¬ (vbiUnham8 (p.byte 2) * 3 < 0 ∨ vbiUnham8 (p.byte 2) * 3 > 39) :=
          hpointer
        rw [if_neg hpointer']
        change Discarded (decodeLoop callback p (blockPointer p).toNat 40 3 _).dx
        rw [hloop]
        exact reset_discarded t
      · exact absurd expected hnot
    · cases hpass

/-- Uncorrectable control bytes are never decoded, in every state and for every
packet, exactly if no error is hidden in the sum of two words. -/
theorem pfc_control_bytes_guarded (callback : PfcBlock → Bool) (dx : Demux) (p : Packet) :
    Guarded callback dx p ↔ Unhidden callback dx p := by
  constructor
  · intro guarded
    constructor
    · intro header page hidden
      have corrupt : Corrupt (p.byte 4) (p.byte 5) (p.byte 6) (p.byte 7) :=
        hidden.1.imp id Or.inl
      exact (subcode_discarded_iff callback dx header page corrupt).mp
        (guarded.subcode header page corrupt) hidden
    · intro pass hpass block hblock hidden
      have corrupt : Corrupt (block.getD 0 0) (block.getD 1 0) (block.getD 2 0) (block.getD 3 0) :=
        hidden.1.imp id Or.inl
      exact (structureHeader_guarded_iff callback hpass hblock corrupt).mp
        (guarded.structureHeader pass hpass block hblock corrupt) hidden
  · intro unhidden
    constructor
    · exact fun header bad => feed_bad_page callback dx header bad
    · intro header page corrupt
      exact (subcode_discarded_iff callback dx header page corrupt).mpr
        (unhidden.subcode header page)
    · exact fun ofPage bad => feed_bad_pointer callback ofPage bad
    · intro pass hpass block hblock corrupt
      exact (structureHeader_guarded_iff callback hpass hblock corrupt).mpr
        (unhidden.structureHeader pass hpass block hblock)

/-- Header of page 0x100 with an uncorrectable continuity index. -/
def badIndex : Packet :=
  ⟨[0x02, 0x15, 0x15, 0x15, 0x01, 0x15, 0x02, 0x15] ++ List.replicate 34 0, rfl, 0⟩

/-- The first packet of the page. Its last two bytes begin a structure header
with an uncorrectable byte. -/
def badHeader : Packet :=
  ⟨[0xc7, 0x15, 0xa1] ++ List.replicate 36 0 ++ [0xa1, 0x01, 0x15], rfl, 0⟩

/-- The second packet of the page, with the rest of the structure header. -/
def restOfHeader : Packet :=
  ⟨[0x02, 0x02, 0x15, 0x02, 0x15] ++ List.replicate 37 0, rfl, 0⟩

/-- A new decoder takes the header with the uncorrectable index for index 15 of
seven packets. Then it opens a block of application 31 from an uncorrectable
structure header. -/
theorem pfc_control_bytes_unguarded :
    ¬ Guarded (fun _ => true) (init 0x100 0) badIndex ∧
    ¬ Guarded (fun _ => true) (feedAll (fun _ => true) (init 0x100 0) [badIndex, badHeader]).1
      restOfHeader := by
  constructor
  · intro h
    have hreset := h.subcode (by decide) (by decide) (by decide)
    exact absurd (congrArg Demux.ci hreset) (by decide +kernel)
  · intro h
    have hidden : ∃ pass ∈ passesOf (fun _ => true)
        (feedAll (fun _ => true) (init 0x100 0) [badIndex, badHeader]).1 restOfHeader,
        ∃ block ∈ completedHeader restOfHeader pass,
          Hidden (block.getD 0 0) (block.getD 1 0) (block.getD 2 0) (block.getD 3 0) := by
      decide +kernel
    obtain ⟨pass, hpass, block, hblock, hhidden⟩ := hidden
    have corrupt : Corrupt (block.getD 0 0) (block.getD 1 0) (block.getD 2 0) (block.getD 3 0) :=
      hhidden.1.imp id Or.inl
    exact (structureHeader_guarded_iff _ hpass hblock corrupt).mp
      (h.structureHeader pass hpass block hblock corrupt) hhidden

end PfcErrors
