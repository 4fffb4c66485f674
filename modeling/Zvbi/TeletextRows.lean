import Mathlib.Data.List.Induction
import Zvbi.TeletextLop

/-!
# Rows of the page in progress

The rows of a page come from its packets or from the version in the cache. They are
compared here with what was received since the header of the page, while it is
transmitted and when it is stored.
-/

namespace TeletextRows
open Hamming TeletextHeader TeletextLop

variable {Other Rest : Type}

theorem vbiPar8_of_good (c : UInt8) (h : 0 ≤ vbiUnpar8 c) : vbiPar8 c = c := by
  apply UInt8.toNat_inj.mp
  rw [vbiPar8_toNat]
  by_cases hodd : parityBit c.toNat = 1
  · exact if_pos hodd
  · rw [vbiUnpar8_eq, if_neg hodd] at h
    exact absurd h (by decide)

theorem byte_of_rowGood {row : Nat → UInt8} (h : rowGood row = true) {i : Nat} (hi : i < 40) :
    0 ≤ vbiUnpar8 (row i) := by
  rw [rowGood, List.all_eq_true] at h
  exact of_decide_eq_true (h i (List.mem_range.mpr hi))

variable {n packet : Nat} {q : Packet}

variable {lopRaw : Nat → Nat → UInt8} {f : OtherFunctions Other Rest} {w : LopWorld Other}

theorem setParity_good (h : rowGood (lopRaw n) = true) (row : Nat) {column : Nat}
    (hcolumn : column < 40) : setParity lopRaw row column n = lopRaw n := by
  rw [setParity]
  by_cases hrow : n = row
  · subst hrow
    rw [Function.update_self, vbiPar8_of_good _ (byte_of_rowGood h hcolumn),
      Function.update_eq_self]
  · rw [Function.update_of_ne hrow]

/-- Rows without errors do not need the correction. -/
theorem fixFallback_good (h : rowGood (lopRaw n) = true) (trips : List PopPointers.Triplet)
    (row : Nat) : fixFallback lopRaw trips row n = lopRaw n := by
  induction trips generalizing lopRaw row with
  | nil => rfl
  | cons t trips ih =>
    rw [fixFallback]
    split
    · rename_i haddress
      have hset := setParity_good h row (show t.address.toNat < 40 from haddress)
      split
      · rw [ih (by rw [hset]; exact h), hset]
      · exact ih h row
    · split
      · rfl
      · exact ih h _

/-- What the loop over the packets makes of one row. -/
theorem foldl_checkRow (lopPackets : Nat) (lopRaw : Nat → Nat → UInt8) (packets : List Nat)
    (page : (Nat → Nat → UInt8) × Nat) (n : Nat) :
    (packets.foldl (checkRow lopPackets lopRaw) page).1 n =
      if n ∈ packets ∧ lopPackets.testBit n ∧ rowGood (lopRaw n) then lopRaw n else page.1 n := by
  induction packets generalizing page with
  | nil => rw [if_neg (fun h => List.not_mem_nil h.1)]; rfl
  | cons packet packets ih =>
    rw [List.foldl_cons, ih, checkRow]
    simp only [List.mem_cons]
    by_cases hpacket : n = packet
    · subst hpacket
      by_cases hgood : lopPackets.testBit n = true ∧ rowGood (lopRaw n) = true
      · simp only [hgood, and_self, and_true, if_true, Function.update_self, true_or, ite_self]
      · simp only [hgood, and_false, if_false]
    · have hrow : (if lopPackets.testBit packet = true ∧ rowGood (lopRaw packet) = true then
          (Function.update page.1 packet (lopRaw packet), page.2 ||| 1 <<< packet)
          else page).1 n = page.1 n := by
        split
        · exact Function.update_of_ne hpacket _ _
        · rfl
      simp only [hrow, hpacket, false_or]

/-- A row whose packet has no parity error replaces the row of the page. -/
theorem lopParityCheck_received {r : RawPage (PageData Rest)} (hlow : 1 ≤ n) (hhigh : n ≤ 25)
    (hbit : r.lopPackets.testBit n = true) (hgood : rowGood (r.lopRaw n) = true) :
    (lopParityCheck r).1.raw n = r.lopRaw n := by
  rw [lopParityCheck]
  dsimp only
  have hmem : n ∈ List.range' 1 25 := List.mem_range'_1.mpr ⟨hlow, by omega⟩
  rw [foldl_checkRow]
  split
  · rw [fixFallback_good hgood, if_pos ⟨hmem, hbit, hgood⟩]
  · rw [if_pos ⟨hmem, hbit, hgood⟩]

theorem lopParityCheck_missing {r : RawPage (PageData Rest)}
    (hbit : r.lopPackets.testBit n = false) : (lopParityCheck r).1.raw n = r.page.data.raw n := by
  rw [lopParityCheck]
  dsimp only
  rw [foldl_checkRow, hbit]
  exact if_neg (fun h => Bool.false_ne_true h.2.1)

def HoldsText (function : Int) : Prop :=
  function = pageFunctionUnknown ∨ function = pageFunctionGdrcs ∨ function = pageFunctionDrcs

def HoldsRows (function : Int) : Prop := function = pageFunctionLop ∨ HoldsText function

theorem isParsed_false {function : Int} (h : HoldsRows function) : isParsed function = false := by
  obtain rfl | rfl | rfl | rfl := h
  all_goals rfl

structure SameHeader (page page' : Page (PageData Rest)) : Prop where
  pgno : page'.pgno = page.pgno
  subno : page'.subno = page.subno
  flags : page'.flags = page.flags

theorem SameHeader.refl (page : Page (PageData Rest)) : SameHeader page page := ⟨rfl, rfl, rfl⟩

theorem parse283_header (f : OtherFunctions Other Rest) (vtp : Page (PageData Rest))
    (buf : Packet) : SameHeader vtp (parse283 f vtp buf).1 := by
  rw [parse283]
  repeat' split
  all_goals exact ⟨rfl, rfl, rfl⟩

theorem parse28_header (f : OtherFunctions Other Rest) (w : LopWorld Other)
    (vtp : Page (PageData Rest)) (buf : Packet) : SameHeader vtp (parse28 f w vtp buf).1 := by
  rw [parse28]
  dsimp only
  split
  · exact SameHeader.refl vtp
  · split
    · exact parse283_header f vtp buf
    · exact ⟨rfl, rfl, rfl⟩

theorem parseText_header (f : OtherFunctions Other Rest) (w : LopWorld Other)
    (r : RawPage (PageData Rest)) (packet : Nat) (buf : Packet) :
    SameHeader r.page (parseText f w r packet buf).2.1.page := by
  rw [parseText]
  dsimp only
  split
  · by_cases hok : (f.parseData w r.page packet buf).2.2 = true
    · simp only [hok, if_true]
      exact ⟨rfl, rfl, rfl⟩
    · simp only [hok]
      exact ⟨rfl, rfl, rfl⟩
  · repeat' split
    all_goals exact ⟨rfl, rfl, rfl⟩

theorem parse26_header (f : OtherFunctions Other Rest) (w : LopWorld Other)
    (r : RawPage (PageData Rest)) (buf : Packet) :
    SameHeader r.page (parse26 f w r buf).2.1.page := by
  rw [parse26]
  dsimp only
  repeat' split
  all_goals exact ⟨rfl, rfl, rfl⟩

theorem parseRow_header (f : OtherFunctions Other Rest) (w : LopWorld Other)
    (r : RawPage (PageData Rest)) (packet : Nat) (buf : Packet) :
    SameHeader r.page (parseRow f w r packet buf).2.1.page := by
  rw [parseRow]
  split
  · exact parseText_header f w r packet buf
  · split
    · exact parse26_header f w r buf
    · split
      · exact ⟨rfl, rfl, rfl⟩
      · exact parse28_header f w r.page buf

structure NamesDrcs (buf : Packet) : Prop where
  designation : vbiUnham8 (buf 2) = 3
  function : namedFunction buf = pageFunctionGdrcs ∨ namedFunction buf = pageFunctionDrcs

theorem parse28_function (f : OtherFunctions Other Rest) (w : LopWorld Other)
    (vtp : Page (PageData Rest)) (buf : Packet) :
    (parse28 f w vtp buf).1.function = vtp.function ∨ NamesDrcs buf ∧
      ((parse28 f w vtp buf).1.function = pageFunctionDiscard ∨
        vtp.function = pageFunctionUnknown ∧ HoldsText (parse28 f w vtp buf).1.function) := by
  rw [parse28]
  dsimp only
  split
  · exact Or.inl rfl
  · split
    · rename_i hdesignation
      rw [parse283]
      split
      · exact Or.inl rfl
      · split
        · exact Or.inl rfl
        · rename_i hnamed
          have hdrcs : namedFunction buf = pageFunctionGdrcs ∨
              namedFunction buf = pageFunctionDrcs := by
            by_contra h
            rw [not_or] at h
            exact hnamed h
          have hnames : NamesDrcs buf := ⟨hdesignation, hdrcs⟩
          split
          · rename_i hfunction
            obtain hunknown | hsame := hfunction
            · exact Or.inr ⟨hnames, Or.inr ⟨hunknown, Or.inr hdrcs⟩⟩
            · exact Or.inl hsame.symm
          · exact Or.inr ⟨hnames, Or.inl rfl⟩
    · exact Or.inl rfl

theorem parseRow_function (f : OtherFunctions Other Rest) (w : LopWorld Other)
    (r : RawPage (PageData Rest)) (hpacket : packet ≤ 27) (buf : Packet) :
    (parseRow f w r packet buf).2.1.page.function = r.page.function := by
  rw [parseRow]
  split
  · rw [parseText]
    dsimp only
    split
    · by_cases hok : (f.parseData w r.page packet buf).2.2 = true
      · simp only [hok, if_true]
        rfl
      · simp only [hok]
        rfl
    · repeat' split
      all_goals rfl
  · split
    · rw [parse26]
      dsimp only
      repeat' split
      all_goals rfl
    · rw [if_pos (by omega)]
      rfl

theorem parse28_raw (f : OtherFunctions Other Rest) (w : LopWorld Other)
    (vtp : Page (PageData Rest)) (buf : Packet) :
    (parse28 f w vtp buf).1.data.raw = vtp.data.raw := by
  rw [parse28]
  dsimp only
  split
  · rfl
  · split
    · rw [parse283]
      repeat' split
      all_goals rfl
    · rfl

theorem parse26_raw (f : OtherFunctions Other Rest) (w : LopWorld Other)
    {r : RawPage (PageData Rest)} (h : HoldsRows r.page.function) (buf : Packet) :
    (parse26 f w r buf).2.1.page.data.raw = r.page.data.raw := by
  have hpop : ¬ (r.page.function = pageFunctionGpop ∨ r.page.function = pageFunctionPop) := by
    obtain h | h | h | h := h
    all_goals rw [h]; decide
  rw [parse26]
  dsimp only
  rw [if_neg hpop]
  repeat' split
  all_goals rfl

theorem parseRow_late (f : OtherFunctions Other Rest) (w : LopWorld Other)
    {r : RawPage (PageData Rest)} (h : HoldsRows r.page.function) (hpacket : 26 ≤ packet)
    (buf : Packet) :
    (parseRow f w r packet buf).2.1.page.data.raw = r.page.data.raw ∧
      (parseRow f w r packet buf).2.1.lopRaw = r.lopRaw ∧
      (parseRow f w r packet buf).2.1.lopPackets = r.lopPackets := by
  rw [parseRow, if_neg (by omega)]
  split
  · refine ⟨parse26_raw f w h buf, ?_⟩
    rw [parse26]
    dsimp only
    repeat' split
    all_goals exact ⟨rfl, rfl⟩
  · split
    · exact ⟨rfl, rfl, rfl⟩
    · exact ⟨parse28_raw f w r.page buf, rfl, rfl⟩

/-- A row of a page with text waits for the parity check. -/
theorem parseRow_lop (f : OtherFunctions Other Rest) (w : LopWorld Other)
    {r : RawPage (PageData Rest)} (h : r.page.function = pageFunctionLop) (hpacket : packet ≤ 25)
    (buf : Packet) :
    parseRow f w r packet buf = (w, { r with
      lopRaw := Function.update r.lopRaw packet (rowBytes buf)
      lopPackets := r.lopPackets ||| 1 <<< packet }, true, false) := by
  rw [parseRow, if_pos hpacket, parseText]
  dsimp only
  rw [isParsed_false (Or.inl h), if_neg Bool.false_ne_true, if_pos h]

theorem parseRow_text (f : OtherFunctions Other Rest) (w : LopWorld Other)
    {r : RawPage (PageData Rest)} (h : HoldsText r.page.function) (hpacket : packet ≤ 25)
    (buf : Packet) :
    (parseRow f w r packet buf).2.1.page.data.raw =
      Function.update r.page.data.raw packet (rowBytes buf) := by
  have hothers : ¬ r.page.function = pageFunctionLop ∧ ¬ r.page.function = pageFunctionEpg ∧
      ¬ r.page.function = pageFunctionEacemTrigger := by
    obtain h | h | h := h
    all_goals rw [h]; decide
  rw [parseRow, if_pos hpacket, parseText]
  dsimp only
  rw [isParsed_false (Or.inr h), if_neg Bool.false_ne_true, if_neg hothers.1,
    if_neg hothers.2.1, if_neg (fun htrigger => hothers.2.2 htrigger.1)]
  rfl

instance (m : Fin 8) (n : Nat) (q : Packet) : Decidable (IsPacket m n q) :=
  decidable_of_iff (0 ≤ address q ∧ (address q).toNat % 8 = m.val ∧ (address q).toNat / 8 = n)
    ⟨fun h => ⟨h.1, Fin.ext h.2.1, h.2.2⟩, fun h => ⟨h.good, congrArg Fin.val h.magazine, h.number⟩⟩

theorem isPacket_unique {m m' : Fin 8} {n' : Nat} (h : IsPacket m n q) (h' : IsPacket m' n' q) :
    m' = m ∧ n' = n :=
  ⟨h'.magazine.symm.trans h.magazine, h'.number.symm.trans h.number⟩

def lastRow (m : Fin 8) (n : Nat) (since : List Packet) : Option Packet :=
  since.reverse.find? fun q => IsPacket m n q

theorem lastRow_snoc (m : Fin 8) (n : Nat) (since : List Packet) (q : Packet) :
    lastRow m n (since ++ [q]) = if IsPacket m n q then some q else lastRow m n since := by
  rw [lastRow, List.reverse_append, List.reverse_singleton, List.singleton_append, List.find?_cons]
  by_cases hq : IsPacket m n q
  · rw [decide_eq_true hq, if_pos hq]
  · rw [decide_eq_false hq, if_neg hq]
    rfl

def receivedRow (base : Nat → Nat → UInt8) (m : Fin 8) (since : List Packet) (n : Nat) :
    Nat → UInt8 :=
  match lastRow m n since with
  | some q => rowBytes q
  | none => base n

def headerPgno (m : Fin 8) (h : Packet) : Int := mag8 m * 256 + headerPage h
def headerSubno (h : Packet) : Nat := (headerSubpage h).toNat &&& 0x3F7F

def headerControl (h : Packet) : Int := headerFlags h * 0x10000 + headerSubpage h

structure InProgress (serial : Bool) (base : Nat → Nat → UInt8) (m : Fin 8) (header : Packet)
    (since : List Packet) (r : RawPage (PageData Rest)) : Prop where
  pgno : r.page.pgno = headerPgno m header
  subno : r.page.subno = headerSubno header
  mode : magazineSerial r.page.flags = serial
  text : HoldsText r.page.function → ∀ n, 1 ≤ n → n ≤ 25 →
    r.page.data.raw n = receivedRow base m since n
  lop : r.page.function = pageFunctionLop → ∀ n, 1 ≤ n → n ≤ 25 →
    r.page.data.raw n = base n ∧ r.lopPackets.testBit n = (lastRow m n since).isSome ∧
      ∀ q, lastRow m n since = some q → r.lopRaw n = rowBytes q

variable {serial : Bool} {base : Nat → Nat → UInt8} {m : Fin 8} {header : Packet}
variable {since : List Packet} {r : RawPage (PageData Rest)}

theorem lastRow_skip (hq : ¬ IsPacket m n q) :
    lastRow m n (since ++ [q]) = lastRow m n since := by
  rw [lastRow_snoc, if_neg hq]

theorem receivedRow_skip (hq : ¬ IsPacket m n q) :
    receivedRow base m (since ++ [q]) n = receivedRow base m since n := by
  rw [receivedRow, lastRow_skip hq, receivedRow]

theorem receivedRow_same (hq : IsPacket m n q) :
    receivedRow base m (since ++ [q]) n = rowBytes q := by
  rw [receivedRow, lastRow_snoc, if_pos hq]

/-- Packets which are not rows of the magazine do not matter. -/
theorem InProgress.skip (hr : InProgress serial base m header since r) {q : Packet}
    (hq : ∀ n, 1 ≤ n → n ≤ 25 → ¬ IsPacket m n q) :
    InProgress serial base m header (since ++ [q]) r where
  pgno := hr.pgno
  subno := hr.subno
  mode := hr.mode
  text htext n hlow hhigh := by
    rw [receivedRow_skip (hq n hlow hhigh)]
    exact hr.text htext n hlow hhigh
  lop hlop n hlow hhigh := by
    rw [lastRow_skip (hq n hlow hhigh)]
    exact hr.lop hlop n hlow hhigh

theorem testBit_mark (packets packet n : Nat) :
    (packets ||| 1 <<< packet).testBit n = (packets.testBit n || decide (packet = n)) := by
  rw [Nat.testBit_or, Nat.one_shiftLeft, Nat.testBit_two_pow]

theorem InProgress.row (hr : InProgress serial base m header since r)
    (f : OtherFunctions Other Rest) (w : LopWorld Other) (hq : IsPacket m packet q)
    (hpacket : packet ≤ 25) :
    InProgress serial base m header (since ++ [q]) (parseRow f w r packet q).2.1 := by
  have hheader := parseRow_header f w r packet q
  have hfunction := parseRow_function f w r (show packet ≤ 27 by omega) q
  have hother : ∀ n, n ≠ packet → ¬ IsPacket m n q := fun n hn hqn => hn (isPacket_unique hq hqn).2
  constructor
  case pgno => rw [hheader.pgno, hr.pgno]
  case subno => rw [hheader.subno, hr.subno]
  case mode => rw [hheader.flags, hr.mode]
  case text =>
    intro htext n hlow hhigh
    rw [hfunction] at htext
    rw [parseRow_text f w htext hpacket]
    by_cases hn : n = packet
    · subst hn
      rw [Function.update_self, receivedRow_same hq]
    · rw [Function.update_of_ne hn, receivedRow_skip (hother n hn)]
      exact hr.text htext n hlow hhigh
  case lop =>
    intro hlop n hlow hhigh
    rw [hfunction] at hlop
    obtain ⟨hraw, hbit, hlast⟩ := hr.lop hlop n hlow hhigh
    rw [parseRow_lop f w hlop hpacket]
    dsimp only
    by_cases hn : n = packet
    · subst hn
      rw [lastRow_snoc, if_pos hq, testBit_mark, Function.update_self, decide_eq_true rfl,
        Bool.or_true]
      refine ⟨hraw, rfl, fun q' hq' => ?_⟩
      rw [Option.some.inj hq']
    · rw [lastRow_skip (hother n hn), testBit_mark, Function.update_of_ne hn,
        decide_eq_false (Ne.symm hn), Bool.or_false]
      exact ⟨hraw, hbit, hlast⟩

variable {vtp cvtp : Page (PageData Rest)}

/-- A page which has rows after packet 28 had them before. -/
theorem parse28_holds :
    (HoldsText (parse28 f w vtp q).1.function → HoldsText vtp.function) ∧
      ((parse28 f w vtp q).1.function = pageFunctionLop → vtp.function = pageFunctionLop) := by
  obtain hsame | ⟨-, hdiscard | ⟨hunknown, htext⟩⟩ := parse28_function f w vtp q
  · rw [hsame]
    exact ⟨id, id⟩
  · rw [hdiscard]
    constructor
    · rintro (h | h | h) <;> exact absurd h (by decide)
    · intro h
      exact absurd h (by decide)
  · refine ⟨fun _ => Or.inl hunknown, fun hlop => ?_⟩
    rw [hlop] at htext
    obtain h | h | h := htext
    all_goals exact absurd h (by decide)

theorem InProgress.late (hr : InProgress serial base m header since r)
    (f : OtherFunctions Other Rest) (w : LopWorld Other) (hq : IsPacket m packet q)
    (hlow : 26 ≤ packet) (hhigh : packet ≤ 28) :
    InProgress serial base m header (since ++ [q]) (parseRow f w r packet q).2.1 := by
  have hheader := parseRow_header f w r packet q
  have hskip : InProgress serial base m header (since ++ [q]) r :=
    hr.skip fun n _ hn hqn => by
      have hnumber := (isPacket_unique hq hqn).2
      omega
  have hholds : (HoldsText (parseRow f w r packet q).2.1.page.function →
        HoldsText r.page.function) ∧
      ((parseRow f w r packet q).2.1.page.function = pageFunctionLop →
        r.page.function = pageFunctionLop) := by
    by_cases hlast : packet = 28
    · subst hlast
      exact parse28_holds
    · rw [parseRow_function f w r (show packet ≤ 27 by omega) q]
      exact ⟨id, id⟩
  constructor
  case pgno => rw [hheader.pgno, hr.pgno]
  case subno => rw [hheader.subno, hr.subno]
  case mode => rw [hheader.flags, hr.mode]
  case text =>
    intro htext n hlow' hhigh'
    have hbefore := hholds.1 htext
    rw [(parseRow_late f w (Or.inr hbefore) hlow q).1]
    exact hskip.text hbefore n hlow' hhigh'
  case lop =>
    intro hlop n hlow' hhigh'
    have hbefore := hholds.2 hlop
    obtain ⟨hraw, hlopRaw, hlopPackets⟩ := parseRow_late f w (Or.inl hbefore) hlow q
    rw [hraw, hlopRaw, hlopPackets]
    exact hskip.lop hbefore n hlow' hhigh'

def cachedVersion (f : OtherFunctions Other Rest) (w : LopWorld Other) (m : Fin 8)
    (header : Packet) : Option (Page (PageData Rest)) :=
  if headerPgno m header ≠ 0x1E7 ∧ erasePage (headerControl header) = false then
    (f.vbiCacheGetPage w (headerPgno m header) (headerSubno header)).2
  else
    none

def baseRows (cached : Option (Page (PageData Rest))) : Nat → Nat → UInt8 :=
  match cached with
  | some vtp => vtp.data.raw
  | none => fun _ _ => 0x20

/-- A page as it is after its header, with a number, a mode and rows. -/
structure Starts (pgno : Int) (subno : Nat) (serial : Bool) (base : Nat → Nat → UInt8)
    (vtp : Page (PageData Rest)) : Prop where
  pgno : vtp.pgno = pgno
  subno : vtp.subno = subno
  mode : magazineSerial vtp.flags = serial
  rows : HoldsRows vtp.function → ∀ n, 1 ≤ n → vtp.data.raw n = base n

variable {pgno : Int} {subno : Nat}

/-- The conversion of a new page does not change its rows, or it has none any more. -/
theorem Starts.convert (h : Starts pgno subno serial base vtp)
    (hunknown : vtp.function = pageFunctionUnknown) (f : OtherFunctions Other Rest)
    (w : LopWorld Other) (function : Int) :
    Starts pgno subno serial base (vbiConvertPage f w vtp function).2 := by
  have hrows := h.rows (Or.inr (Or.inl hunknown))
  rw [vbiConvertPage]
  split
  · exact ⟨h.pgno, h.subno, h.mode, fun _ => hrows⟩
  · split
    · dsimp only
      split
      · exact ⟨h.pgno, h.subno, h.mode, fun _ => hrows⟩
      · exact h
    · split
      · rename_i hparsed
        dsimp only
        split
        · exact h
        · refine ⟨h.pgno, h.subno, h.mode, fun hholds => ?_⟩
          have hnone : isParsed function = false := isParsed_false hholds
          obtain rfl | rfl | rfl | rfl | rfl := hparsed
          all_goals exact Bool.noConfusion hnone
      · exact h

theorem magazineSerial_erase {flags : Int} (h : erasePage flags = false) :
    magazineSerial (flags + 0x80) = magazineSerial flags := by
  rw [erasePage, decide_eq_false_iff_not] at h
  rw [magazineSerial, magazineSerial, decide_eq_decide]
  omega

theorem starts_continue (f : OtherFunctions Other Rest) (hpgno : cvtp.pgno = pgno)
    (hsubno : cvtp.subno = subno) (hmode : magazineSerial cvtp.flags = serial) (header : Packet) :
    Starts pgno subno serial vtp.data.raw (continuePage (lopFunctions f) cvtp vtp header) := by
  refine ⟨hpgno, hsubno, hmode, fun _ n hn => ?_⟩
  have hcopy : (copyHeader vtp.function header vtp.data).raw n = vtp.data.raw n := by
    rw [copyHeader]
    split
    · exact Function.update_of_ne (Nat.ne_of_gt hn) _ _
    · rfl
  exact hcopy

theorem newFunction_unknown {page : Int}
    (h : HoldsRows (newFunction (lopFunctions f) w pgno page).2) :
    (newFunction (lopFunctions f) w pgno page).2 = pageFunctionUnknown := by
  have hsystem : ∀ {function : Int}, HoldsRows function →
      function ≠ pageFunctionBtt ∧ function ≠ pageFunctionEacemTrigger ∧
        function ≠ pageFunctionMip ∧ function ≠ pageFunctionMot := by
    intro function hholds
    obtain rfl | rfl | rfl | rfl := hholds
    all_goals decide
  rw [newFunction] at h ⊢
  by_cases h1F0 : pgno = 0x1F0
  · rw [if_pos h1F0] at h
    exact absurd rfl (hsystem h).1
  by_cases h1E7 : pgno = 0x1E7
  · rw [if_neg h1F0, if_pos h1E7] at h
    exact absurd rfl (hsystem h).2.1
  by_cases hFD : page = 0xFD
  · rw [if_neg h1F0, if_neg h1E7, if_pos hFD] at h
    exact absurd rfl (hsystem h).2.2.1
  by_cases hFE : page = 0xFE
  · rw [if_neg h1F0, if_neg h1E7, if_neg hFD, if_pos hFE] at h
    exact absurd rfl (hsystem h).2.2.2
  rw [if_neg h1F0, if_neg h1E7, if_neg hFD, if_neg hFE]

/-- A page built from scratch has rows of spaces, if any. -/
theorem starts_rebuild (f : OtherFunctions Other Rest) (w : LopWorld Other)
    (hpgno : cvtp.pgno = pgno) (hsubno : cvtp.subno = subno)
    (hmode : magazineSerial cvtp.flags = serial) (page : Int) (header : Packet) :
    Starts pgno subno serial (fun _ _ => 0x20)
      (rebuildPage (lopFunctions f) w cvtp page header).2 := by
  constructor
  case pgno => exact hpgno
  case subno => exact hsubno
  case mode =>
    rw [← hmode, rebuildPage]
    dsimp only
    split
    · rfl
    · rename_i herase
      exact magazineSerial_erase (Bool.eq_false_iff.mpr herase)
  case rows =>
    intro hholds n hn
    rw [rebuildPage] at hholds ⊢
    dsimp only at hholds ⊢
    have hunknown := newFunction_unknown hholds
    have hclear : (clearData f pageFunctionUnknown header cvtp.data).raw n = fun _ => 0x20 := by
      rw [clearData, if_neg (by decide), if_pos rfl]
      exact Function.update_of_ne (Nat.ne_of_gt hn) (rowBytes header) (fun _ _ => 0x20)
    rw [hunknown]
    exact hclear

/-- What `startPage` makes of the fields of a header. -/
theorem starts_startPage (f : OtherFunctions Other Rest) (w : LopWorld Other) {m : Fin 8}
    {header : Packet} (hpgno : cvtp.pgno = headerPgno m header)
    (hmode : magazineSerial (headerControl header) = serial) :
    Starts (headerPgno m header) (headerSubno header) serial
      (baseRows (cachedVersion f w m header))
      (startPage (lopFunctions f) w (headerFields cvtp header) (headerPage header) header).2 := by
  have hcontrol : (headerFields cvtp header).flags = headerControl header := rfl
  have hsubno : (headerFields cvtp header).subno = headerSubno header := rfl
  have hnumber : (headerFields cvtp header).pgno = headerPgno m header := hpgno
  rw [← hcontrol] at hmode
  -- The conversion is the same for both ways to start.
  have hconverted : ∀ started : LopWorld Other × Page (PageData Rest),
      Starts (headerPgno m header) (headerSubno header) serial
        (baseRows (cachedVersion f w m header)) started.2 →
      Starts (headerPgno m header) (headerSubno header) serial
        (baseRows (cachedVersion f w m header))
        { (if started.2.function = pageFunctionUnknown then
            if functionOf (lopFunctions f) started.1 (headerFields cvtp header).pgno
                (headerPage header) ≠ pageFunctionUnknown then
              (lopFunctions f).vbiConvertPage started.1 started.2
                (functionOf (lopFunctions f) started.1 (headerFields cvtp header).pgno
                  (headerPage header))
            else started
          else started).2 with extDesignations := 0 } := by
    intro started h
    split
    · rename_i hunknown
      split
      · have hstarts := h.convert hunknown f started.1
          (functionOf (lopFunctions f) started.1 (headerFields cvtp header).pgno
            (headerPage header))
        exact ⟨hstarts.pgno, hstarts.subno, hstarts.mode, hstarts.rows⟩
      · exact ⟨h.pgno, h.subno, h.mode, h.rows⟩
    · exact ⟨h.pgno, h.subno, h.mode, h.rows⟩
  rw [startPage]
  apply hconverted
  rw [cachedVersion, hnumber, hcontrol, hsubno]
  by_cases hcache : headerPgno m header ≠ 0x1E7 ∧ erasePage (headerControl header) = false
  · rw [if_pos hcache, if_pos hcache]
    cases hget : (f.vbiCacheGetPage w (headerPgno m header) (headerSubno header)).2 with
    | none =>
      simp only [lopFunctions, hget]
      exact starts_rebuild f _ hnumber hsubno hmode _ _
    | some vtp =>
      simp only [lopFunctions, hget]
      exact starts_continue f hnumber hsubno hmode _
  · rw [if_neg hcache, if_neg hcache]
    exact starts_rebuild f _ hnumber hsubno hmode _ _

end TeletextRows
