import Zvbi.TeletextRows

/-!
# The parity check of rows

Which characters of a row may have a parity error is decided by the triplets of packets
X/26. A row with another error is not taken from the transmission.
-/

namespace TeletextParity
open Hamming TeletextHeader TeletextLop
open PopPointers (Triplet)

variable {Rest : Type}

def OddParity (c : UInt8) : Prop := (List.range 8).countP c.toNat.testBit % 2 = 1

instance (c : UInt8) : Decidable (OddParity c) := inferInstanceAs (Decidable (_ = 1))

theorem oddParity_iff (c : UInt8) : OddParity c ↔ parityBit c.toNat = 1 := by
  have hcount : ∀ n < 256, (List.range 8).countP n.testBit % 2 = parityBit n := by decide +kernel
  rw [OddParity, hcount _ c.toNat_lt]

theorem vbiUnpar8_nonneg_iff (c : UInt8) : 0 ≤ vbiUnpar8 c ↔ OddParity c := by
  rw [oddParity_iff, vbiUnpar8_eq]
  by_cases hodd : parityBit c.toNat = 1
  · rw [if_pos hodd]
    exact iff_of_true (Int.natCast_nonneg _) hodd
  · rw [if_neg hodd]
    exact iff_of_false (by decide) hodd

theorem vbiPar8_odd (c : UInt8) : OddParity (vbiPar8 c) := by
  rw [oddParity_iff, vbiPar8_toNat]
  exact (setParityBit_spec _ c.toNat_lt).1

theorem vbiPar8_data (c : UInt8) : vbiPar8 c &&& 0x7F = c &&& 0x7F := by
  apply UInt8.toNat_inj.mp
  rw [UInt8.toNat_and, UInt8.toNat_and, vbiPar8_toNat]
  exact (setParityBit_spec _ c.toNat_lt).2

theorem vbiPar8_par8 (c : UInt8) : vbiPar8 (vbiPar8 c) = vbiPar8 c :=
  TeletextRows.vbiPar8_of_good _ ((vbiUnpar8_nonneg_iff _).mpr (vbiPar8_odd c))

theorem rowGood_iff {row : Nat → UInt8} : rowGood row = true ↔ ∀ i < 40, OddParity (row i) := by
  rw [rowGood, List.all_eq_true]
  constructor
  · intro h i hi
    exact (vbiUnpar8_nonneg_iff _).mp (of_decide_eq_true (h i (List.mem_range.mpr hi)))
  · intro h i hi
    exact decide_eq_true ((vbiUnpar8_nonneg_iff _).mpr (h i (List.mem_range.mp hi)))

def nextRow (row : Nat) (t : Triplet) : Nat := if t.address < 40 then row else selectRow t row

/-- The triplets, from the given row on, place a character at this position. No triplet
before that one is missing. -/
def Places (row : Nat) (trips : List Triplet) (r c : Nat) : Prop :=
  ∃ before t after, trips = before ++ t :: after ∧ (∀ u ∈ before, u.address ≤ 63) ∧
    t.address < 40 ∧ placesCharacter t.mode = true ∧
    r = before.foldl nextRow row ∧ c = t.address.toNat

theorem not_places_nil (row r c : Nat) : ¬Places row [] r c := by
  rintro ⟨before, t, after, h, -⟩
  exact List.append_ne_nil_of_right_ne_nil _ (List.cons_ne_nil _ _) h.symm

theorem places_cons {row : Nat} {t : Triplet} {trips : List Triplet} {r c : Nat} :
    Places row (t :: trips) r c ↔
      (t.address < 40 ∧ placesCharacter t.mode = true ∧ r = row ∧ c = t.address.toNat) ∨
        t.address ≤ 63 ∧ Places (nextRow row t) trips r c := by
  constructor
  · rintro ⟨before, u, after, h, hbefore, haddress, hmode, hrow, hcolumn⟩
    cases before with
    | nil =>
      obtain ⟨rfl, -⟩ := List.cons.inj h
      exact Or.inl ⟨haddress, hmode, hrow, hcolumn⟩
    | cons v before =>
      obtain ⟨rfl, rfl⟩ := List.cons.inj h
      exact Or.inr ⟨hbefore t List.mem_cons_self, before, u, after, rfl,
        fun w hw => hbefore w (List.mem_cons_of_mem _ hw), haddress, hmode, hrow, hcolumn⟩
  · rintro (⟨haddress, hmode, hrow, hcolumn⟩ |
      ⟨ht, before, u, after, rfl, hbefore, haddress, hmode, hrow, hcolumn⟩)
    · exact ⟨[], t, trips, rfl, fun u hu => absurd hu List.not_mem_nil, haddress, hmode, hrow,
        hcolumn⟩
    · refine ⟨t :: before, u, after, rfl, fun w hw => ?_, haddress, hmode, hrow, hcolumn⟩
      rcases List.mem_cons.mp hw with rfl | hw
      · exact ht
      · exact hbefore w hw

theorem setParity_apply (lopRaw : Nat → Nat → UInt8) (row column r c : Nat) :
    setParity lopRaw row column r c =
      if r = row ∧ c = column then vbiPar8 (lopRaw r c) else lopRaw r c := by
  rw [setParity]
  by_cases hrow : r = row
  · subst hrow
    rw [Function.update_self]
    by_cases hcolumn : c = column
    · subst hcolumn
      rw [Function.update_self, if_pos ⟨rfl, rfl⟩]
    · rw [Function.update_of_ne hcolumn, if_neg fun h => hcolumn h.2]
  · rw [Function.update_of_ne hrow, if_neg fun h => hrow h.1]

/-- The loop over the triplets gives odd parity to the characters they place, and changes no
other. -/
theorem fixFallback_apply (trips : List Triplet) (lopRaw : Nat → Nat → UInt8) (row r c : Nat) :
    (Places row trips r c → fixFallback lopRaw trips row r c = vbiPar8 (lopRaw r c)) ∧
      (¬Places row trips r c → fixFallback lopRaw trips row r c = lopRaw r c) := by
  induction trips generalizing lopRaw row with
  | nil => exact ⟨fun h => absurd h (not_places_nil row r c), fun _ => rfl⟩
  | cons t trips ih =>
    rw [fixFallback, places_cons, nextRow]
    by_cases haddress : t.address < 40
    · have hin : t.address ≤ 63 := UInt8.le_of_lt (UInt8.lt_trans haddress (by decide))
      rw [if_pos haddress, if_pos haddress]
      by_cases hmode : placesCharacter t.mode = true
      · rw [if_pos hmode]
        have hrest := ih (setParity lopRaw row t.address.toNat) row
        rw [setParity_apply] at hrest
        by_cases hhere : r = row ∧ c = t.address.toNat
        · rw [if_pos hhere, vbiPar8_par8] at hrest
          refine ⟨fun _ => ?_, fun h => absurd (Or.inl ⟨haddress, hmode, hhere⟩) h⟩
          by_cases hlater : Places row trips r c
          · exact hrest.1 hlater
          · exact hrest.2 hlater
        · rw [if_neg hhere] at hrest
          constructor
          · rintro (⟨-, -, h⟩ | ⟨-, h⟩)
            · exact absurd h hhere
            · exact hrest.1 h
          · exact fun h => hrest.2 fun hlater => h (Or.inr ⟨hin, hlater⟩)
      · rw [if_neg hmode]
        constructor
        · rintro (⟨-, h, -⟩ | ⟨-, h⟩)
          · exact absurd h hmode
          · exact (ih lopRaw row).1 h
        · exact fun h => (ih lopRaw row).2 fun hlater => h (Or.inr ⟨hin, hlater⟩)
    · rw [if_neg haddress, if_neg haddress]
      by_cases hmissed : 63 < t.address
      · rw [if_pos hmissed]
        refine ⟨?_, fun _ => rfl⟩
        rintro (⟨h, -⟩ | ⟨h, -⟩)
        · exact absurd h haddress
        · exact absurd h (UInt8.not_le.mpr hmissed)
      · rw [if_neg hmissed]
        have hin : t.address ≤ 63 := UInt8.not_lt.mp hmissed
        constructor
        · rintro (⟨h, -⟩ | ⟨-, h⟩)
          · exact absurd h haddress
          · exact (ih lopRaw (selectRow t row)).1 h
        · exact fun h => (ih lopRaw (selectRow t row)).2 fun hlater => h (Or.inr ⟨hin, hlater⟩)

def Excused (page : Page (PageData Rest)) (row column : Nat) : Prop :=
  page.x26Designations ≠ 0 ∧
    Places 0 ((List.range enhancementCount).map page.data.enh) row column

/-- A row which was received, with no parity error in a character which counts. -/
def ReceivedGood (r : RawPage (PageData Rest)) (n : Nat) : Prop :=
  r.lopPackets.testBit n = true ∧ ∀ i < 40, ¬Excused r.page n i → OddParity (r.lopRaw n i)

def correctedRows (r : RawPage (PageData Rest)) : Nat → Nat → UInt8 := (lopParityCheck r).2.2

theorem correctedRows_apply (r : RawPage (PageData Rest)) (n i : Nat) :
    (Excused r.page n i → correctedRows r n i = vbiPar8 (r.lopRaw n i)) ∧
      (¬Excused r.page n i → correctedRows r n i = r.lopRaw n i) := by
  have hfix := fixFallback_apply ((List.range enhancementCount).map r.page.data.enh) r.lopRaw 0 n i
  rw [correctedRows, lopParityCheck, Excused]
  dsimp only
  by_cases hx26 : r.page.x26Designations ≠ 0
  · rw [if_pos hx26]
    exact ⟨fun h => hfix.1 h.2, fun h => hfix.2 fun hplaces => h ⟨hx26, hplaces⟩⟩
  · rw [if_neg hx26]
    exact ⟨fun h => absurd h.1 hx26, fun _ => rfl⟩

theorem correctedRows_data (r : RawPage (PageData Rest)) (n i : Nat) :
    correctedRows r n i &&& 0x7F = r.lopRaw n i &&& 0x7F := by
  by_cases h : Excused r.page n i
  · rw [(correctedRows_apply r n i).1 h, vbiPar8_data]
  · rw [(correctedRows_apply r n i).2 h]

theorem receivedGood_iff (r : RawPage (PageData Rest)) (n : Nat) :
    r.lopPackets.testBit n = true ∧ rowGood (correctedRows r n) = true ↔ ReceivedGood r n := by
  rw [ReceivedGood, rowGood_iff]
  refine and_congr_right fun _ => forall₂_congr fun i _ => ?_
  by_cases h : Excused r.page n i
  · rw [(correctedRows_apply r n i).1 h]
    exact iff_of_true (vbiPar8_odd _) fun hnot => absurd h hnot
  · rw [(correctedRows_apply r n i).2 h]
    exact ⟨fun hodd _ => hodd, fun hodd => hodd h⟩

/-- The loop over the packets adds those which pass the check. -/
theorem foldl_checkRow_packets (lopPackets : Nat) (lopRaw : Nat → Nat → UInt8)
    (packets : List Nat) (page : (Nat → Nat → UInt8) × Nat) (n : Nat) :
    (packets.foldl (checkRow lopPackets lopRaw) page).2.testBit n = true ↔
      page.2.testBit n = true ∨
        n ∈ packets ∧ lopPackets.testBit n = true ∧ rowGood (lopRaw n) = true := by
  induction packets generalizing page with
  | nil => exact (or_iff_left fun h => List.not_mem_nil h.1).symm
  | cons packet packets ih =>
    rw [List.foldl_cons, ih, checkRow, List.mem_cons]
    by_cases hgood : lopPackets.testBit packet = true ∧ rowGood (lopRaw packet) = true
    · rw [if_pos hgood]
      dsimp only
      rw [Nat.testBit_or, Bool.or_eq_true, Nat.one_shiftLeft, Nat.testBit_two_pow,
        decide_eq_true_iff]
      constructor
      · rintro ((h | rfl) | ⟨hmem, h⟩)
        · exact Or.inl h
        · exact Or.inr ⟨Or.inl rfl, hgood⟩
        · exact Or.inr ⟨Or.inr hmem, h⟩
      · rintro (h | ⟨rfl | hmem, h⟩)
        · exact Or.inl (Or.inl h)
        · exact Or.inl (Or.inr rfl)
        · exact Or.inr ⟨hmem, h⟩
    · rw [if_neg hgood]
      constructor
      · rintro (h | ⟨hmem, h⟩)
        · exact Or.inl h
        · exact Or.inr ⟨Or.inr hmem, h⟩
      · rintro (h | ⟨rfl | hmem, h⟩)
        · exact Or.inl h
        · exact absurd h hgood
        · exact Or.inr ⟨hmem, h⟩

theorem lopParityCheck_raw (r : RawPage (PageData Rest)) (n : Nat) :
    (lopParityCheck r).1.raw n =
      if n ∈ List.range' 1 25 ∧ r.lopPackets.testBit n = true ∧
          rowGood (correctedRows r n) = true then
        correctedRows r n
      else r.page.data.raw n :=
  TeletextRows.foldl_checkRow r.lopPackets (correctedRows r) (List.range' 1 25)
    (r.page.data.raw, r.page.lopPackets) n

theorem mem_packets {n : Nat} : n ∈ List.range' 1 25 ↔ 1 ≤ n ∧ n ≤ 25 := by
  rw [List.mem_range'_1]
  omega

/-- The rows of a page are replaced by rows received without errors which count. Such a row
has odd parity and differs from the received one only in the parity bits of characters which
packets X/26 replace. All other rows are as they were, and the set of rows grows by those
which were replaced. -/
theorem lopParityCheck_rows (r : RawPage (PageData Rest)) :
    (∀ n, 1 ≤ n ∧ n ≤ 25 ∧ ReceivedGood r n → ∀ i < 40,
      OddParity ((lopParityCheck r).1.raw n i) ∧
      (lopParityCheck r).1.raw n i &&& 0x7F = r.lopRaw n i &&& 0x7F ∧
      (¬Excused r.page n i → (lopParityCheck r).1.raw n i = r.lopRaw n i)) ∧
    (∀ n, ¬(1 ≤ n ∧ n ≤ 25 ∧ ReceivedGood r n) →
      (lopParityCheck r).1.raw n = r.page.data.raw n) ∧
    ∀ n, (lopParityCheck r).2.1.testBit n = true ↔
      r.page.lopPackets.testBit n = true ∨ 1 ≤ n ∧ n ≤ 25 ∧ ReceivedGood r n := by
  have hreplaced : ∀ n, n ∈ List.range' 1 25 ∧ r.lopPackets.testBit n = true ∧
      rowGood (correctedRows r n) = true ↔ 1 ≤ n ∧ n ≤ 25 ∧ ReceivedGood r n := fun n => by
    rw [mem_packets, receivedGood_iff, and_assoc]
  refine ⟨fun n h i hi => ?_, fun n h => ?_, fun n => ?_⟩
  · have hcheck := (hreplaced n).mpr h
    rw [lopParityCheck_raw, if_pos hcheck]
    exact ⟨rowGood_iff.mp hcheck.2.2 i hi, correctedRows_data r n i, (correctedRows_apply r n i).2⟩
  · rw [lopParityCheck_raw, if_neg fun hcheck => h ((hreplaced n).mp hcheck)]
  · rw [← hreplaced n]
    exact foldl_checkRow_packets r.lopPackets (correctedRows r) (List.range' 1 25)
      (r.page.data.raw, r.page.lopPackets) n

end TeletextParity
