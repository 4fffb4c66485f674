import Mathlib.Data.List.Induction
import Mathlib.Logic.Function.Basic
import Zvbi.Hamming

/-!
# Object and DRCS links of a magazine

The magazine organization table assigns two small numbers to each page of a
magazine. They select a page with objects and a page with DRCS from two tables of
eight links. The formatter looks the numbers up unless packet X/27 of the page
names the page with objects or DRCS itself.

Both tables of numbers start with -1 in every entry. The tables of links are
functions on the positions of their two rows of eight.
-/

namespace MotLinks
open Hamming

structure Fallback where
  blackBgSubstitution : Int
  leftPanelColumns : Int
  rightPanelColumns : Int

/-- An element of `default_obj`. -/
structure DefaultObj where
  type : Int
  address : Int

/-- `struct ttx_pop_link`. -/
structure PopLink where
  pgno : Int
  fallback : Fallback
  defaultObj : Nat → DefaultObj

/-- The tables of `struct ttx_magazine`. -/
structure Magazine where
  popLut : Nat → Int
  drcsLut : Nat → Int
  popLink : Nat → PopLink
  drcsLink : Nat → Int

/-- `ttx_magazine_init()`, where all bytes of the tables are set. -/
def ttxMagazineInit : Magazine :=
  { popLut := fun _ => -1
    drcsLut := fun _ => -1
    popLink := fun _ => ⟨-1, ⟨-1, -1, -1⟩, fun _ => ⟨-1, -1⟩⟩
    drcsLink := fun _ => -1 }

def noPage (pgno : Int) : Bool := pgno % 256 = 255

/-- A packet without its first two bytes. -/
abbrev Raw := Nat → UInt8

def correctable (c : UInt8) : Bool := 0 ≤ vbiUnham8 c

def nibble (c : UInt8) : Nat := (vbiUnham8 c).toNat

/-- The entries a packet 9 to 14 has for its pairs of bytes, from pair `i` on. -/
def extraEntries : Nat → Nat → Nat → List (Nat × Nat)
  | 0, _, _ => []
  | n + 1, i, index =>
    if i = 6 ∨ i = 12 then
      if index = 0x100 then [] else (i, index + 10) :: extraEntries n (i + 1) (index + 11)
    else
      (i, index) :: extraEntries n (i + 1) (index + 1)

/-- The entries a packet 1 to 8 has for its pairs of bytes, from pair `i` on. -/
def decimalEntries : Nat → Nat → Nat → List (Nat × Nat)
  | 0, _, _ => []
  | n + 1, i, index =>
    let index := if i = 10 then index + 6 else index
    (i, index) :: decimalEntries n (i + 1) (index + 1)

def entries (packet : Nat) : List (Nat × Nat) :=
  if 1 ≤ packet ∧ packet ≤ 8 then
    decimalEntries 20 0 ((packet - 1) * 32)
  else if 9 ≤ packet ∧ packet ≤ 14 then
    extraEntries 20 0 ((packet - 9) * 0x30 + 10)
  else
    []

def goodPair (raw : Raw) (i : Nat) : Bool :=
  correctable (raw (2 * i)) && correctable (raw (2 * i + 1))

def storeEntry (raw : Raw) (mag : Magazine) (entry : Nat × Nat) : Magazine :=
  if goodPair raw entry.1 then
    { mag with
      popLut := Function.update mag.popLut entry.2 (nibble (raw (2 * entry.1)) % 8)
      drcsLut := Function.update mag.drcsLut entry.2 (nibble (raw (2 * entry.1 + 1)) % 8) }
  else
    mag

def linkPgno (raw : Raw) : Int :=
  let magazine := nibble (raw 0) % 8
  (if magazine = 0 then 8 else magazine) * 256 + nibble (raw 1) * 16 + nibble (raw 2)

/-- `left_panel_columns` and `right_panel_columns`. -/
def leftPanel (x : Nat) : Int := [0, 16, 0, 8].getD x 0
def rightPanel (x : Nat) : Int := [0, 0, 16, 8].getD x 0

def readPopLink (raw : Raw) : PopLink :=
  let n := fun j => nibble (raw j)
  { pgno := linkPgno raw
    fallback :=
      if n 4 % 2 = 1 then
        ⟨0, 0, 0⟩
      else
        ⟨(n 4 / 8 : Nat), leftPanel (n 4 / 2 % 4), rightPanel (n 4 / 2 % 4)⟩
    defaultObj := fun k =>
      if k = 0 then
        ⟨(n 5 % 4 : Nat), (n 7 * 16 + n 6 : Nat)⟩
      else
        ⟨(n 5 / 4 : Nat), (n 9 * 16 + n 8 : Nat)⟩ }

/-- The bytes from position `start` on. -/
def bytesFrom (raw : Raw) (start : Nat) : Raw := fun j => raw (start + j)

/-- The first `count` bytes are without errors. -/
def goodBytes (raw : Raw) (count : Nat) : Bool :=
  (List.range count).all fun j => correctable (raw j)

/-- Store object link `i` of a packet, whose links start at position `first`. -/
def storePopLink (raw : Raw) (first : Nat) (mag : Magazine) (i : Nat) : Magazine :=
  let raw := bytesFrom raw (10 * i)
  if goodBytes raw 10 then
    { mag with popLink := Function.update mag.popLink (first + i) (readPopLink raw) }
  else
    mag

/-- Store DRCS link `i` of a packet. -/
def storeDrcsLink (raw : Raw) (first : Nat) (mag : Magazine) (i : Nat) : Magazine :=
  let raw := bytesFrom raw (4 * i)
  if goodBytes raw 4 then
    { mag with drcsLink := Function.update mag.drcsLink (first + i) (linkPgno raw) }
  else
    mag

/-- `parse_mot()`. -/
def parseMot (mag : Magazine) (raw : Raw) (packet : Nat) : Magazine :=
  if 1 ≤ packet ∧ packet ≤ 14 then
    (entries packet).foldl (storeEntry raw) mag
  else if packet = 19 ∨ packet = 20 then
    (List.range 4).foldl (storePopLink raw ((packet - 19) * 4)) mag
  else if packet = 22 ∨ packet = 23 then
    (List.range 4).foldl (storePopLink raw ((packet - 1 - 19) * 4)) mag
  else if packet = 21 ∨ packet = 24 then
    (List.range 8).foldl (storeDrcsLink raw (if packet = 21 then 0 else 8)) mag
  else
    mag

structure MotPacket where
  magazine : Nat
  packet : Nat
  raw : Raw

/-- `_magazines` of the network and `default_magazine`. -/
structure Decoder where
  magazines : Nat → Magazine
  defaultMagazine : Magazine

/-- `vbi_teletext_channel_switched()`. -/
def reset : Decoder := ⟨fun _ => ttxMagazineInit, ttxMagazineInit⟩

def decodePacket (vbi : Decoder) (p : MotPacket) : Decoder :=
  { vbi with
    magazines := Function.update vbi.magazines p.magazine
      (parseMot (vbi.magazines p.magazine) p.raw p.packet) }

def decode (packets : List MotPacket) : Decoder := packets.foldl decodePacket reset

/-- `vbi_wst_level`. -/
inductive WstLevel where
  | level1
  | level1p5
  | level2p5
  | level3p5
  deriving DecidableEq

def WstLevel.rank : WstLevel → Nat
  | level1 => 0
  | level1p5 => 1
  | level2p5 => 2
  | level3p5 => 3

/-- What the formatter uses of a page: its number, and the page number of its link 25
from packet X/27. -/
structure Page where
  pgno : Nat
  link25 : Int

def magazineOf (vbi : Decoder) (maxLevel : WstLevel) (pgno : Nat) : Magazine :=
  if maxLevel.rank ≤ 1 then vbi.defaultMagazine else vbi.magazines (pgno / 256)

inductive Selected where
  | noLink
  | page (pgno : Int)
  | outside (i : Int)
  deriving DecidableEq

/-- Use an element of a row of eight links, or fail outside of the row. -/
def element {α : Type} (table : Nat → α) (row : Nat) (i : Int) (use : α → Selected) : Selected :=
  if 0 ≤ i ∧ i < 8 then use (table (8 * row + i.toNat)) else .outside i

/-- The page number of a link, unless it is a dead one. -/
def live (pgno : Int) : Selected := if noPage pgno then .noLink else .page pgno

/-- Take link `i` of the row for Level 3.5 if this is the level and the link is
present, else the one for Level 2.5. -/
def selectLink {α : Type} (table : Nat → α) (pgno : α → Int) (maxLevel : WstLevel) (i : Int) :
    Selected :=
  let low := element table 0 i fun link => live (pgno link)
  if maxLevel.rank < 3 then
    low
  else
    element table 1 i fun link => if noPage (pgno link) then low else .page (pgno link)

/-- The link `default_object_invocation()` takes the objects from. -/
def defaultObjectLink (mag : Magazine) (maxLevel : WstLevel) (vtp : Page) : Selected :=
  let i := mag.popLut (vtp.pgno % 256)
  if i = 0 then .noLink else selectLink mag.popLink PopLink.pgno maxLevel i

/-- The page `enhance()` takes a public object from. -/
def publicObjectLink (mag : Magazine) (maxLevel : WstLevel) (vtp : Page) : Selected :=
  if noPage vtp.link25 then
    let i := mag.popLut (vtp.pgno % 256)
    if i = 0 then .noLink else selectLink mag.popLink PopLink.pgno maxLevel i
  else
    .page vtp.link25

/-- The page `enhance()` takes a DRCS from which is not a global one. -/
def normalDrcsLink (mag : Magazine) (maxLevel : WstLevel) (vtp : Page) : Selected :=
  if noPage vtp.link25 then
    let i := mag.drcsLut (vtp.pgno % 256)
    if i = 0 then .noLink else selectLink mag.drcsLink id maxLevel i
  else
    .page vtp.link25

/-- The places of the formatter which use the look-up tables. -/
inductive Lookup where
  | defaultObject
  | publicObject
  | normalDrcs
  deriving DecidableEq

def select (vbi : Decoder) (maxLevel : WstLevel) (vtp : Page) : Lookup → Selected
  | .defaultObject => defaultObjectLink (magazineOf vbi maxLevel vtp.pgno) maxLevel vtp
  | .publicObject => publicObjectLink (magazineOf vbi maxLevel vtp.pgno) maxLevel vtp
  | .normalDrcs => normalDrcsLink (magazineOf vbi maxLevel vtp.pgno) maxLevel vtp

/-- The entry of the page is looked up, because no link of the page overrides it. -/
def Consulted (vtp : Page) : Lookup → Prop
  | .defaultObject => True
  | .publicObject => noPage vtp.link25
  | .normalDrcs => noPage vtp.link25

instance (vtp : Page) : DecidablePred (Consulted vtp)
  | .defaultObject => inferInstanceAs (Decidable True)
  | .publicObject => inferInstanceAs (Decidable (noPage vtp.link25 = true))
  | .normalDrcs => inferInstanceAs (Decidable (noPage vtp.link25 = true))

/-- A packet holds the entry of a page without errors. -/
def holds (p : MotPacket) (pgno : Nat) : Bool :=
  p.magazine = pgno / 256 &&
    (entries p.packet).any fun entry => entry.2 = pgno % 256 && goodPair p.raw entry.1

def Received (packets : List MotPacket) (pgno : Nat) : Prop := ∃ p ∈ packets, holds p pgno

/-- No index is outside of the tables, and an entry which was not received leads to
no page with objects or DRCS. -/
def Valid (packets : List MotPacket) (maxLevel : WstLevel) (vtp : Page) (l : Lookup) : Prop :=
  (∀ i, select (decode packets) maxLevel vtp l ≠ .outside i) ∧
    (Consulted vtp l → ¬ Received packets vtp.pgno →
      select (decode packets) maxLevel vtp l = .noLink)

def InRow (i : Int) : Prop := 0 ≤ i ∧ i < 8

/-- The tables of numbers of a magazine have numbers of links in the entries which
were received, and -1 in the others. -/
structure Filled (mag : Magazine) (received : Nat → Prop) : Prop where
  number : ∀ e, received e → InRow (mag.popLut e) ∧ InRow (mag.drcsLut e)
  missing : ∀ e, ¬ received e → mag.popLut e = -1 ∧ mag.drcsLut e = -1

variable {mag : Magazine} {r : Nat → Prop} {α : Type}

theorem Filled.congr {s : Nat → Prop} (h : Filled mag r) (hrs : ∀ e, r e ↔ s e) : Filled mag s where
  number := fun e he => h.number e ((hrs e).2 he)
  missing := fun e he => h.missing e fun hr => he ((hrs e).1 hr)

theorem Filled.of_lut {mag' : Magazine} (h : Filled mag r) (hpop : mag'.popLut = mag.popLut)
    (hdrcs : mag'.drcsLut = mag.drcsLut) : Filled mag' r where
  number := by
    intro e he
    rw [hpop, hdrcs]
    exact h.number e he
  missing := by
    intro e he
    rw [hpop, hdrcs]
    exact h.missing e he

theorem filled_init : Filled ttxMagazineInit fun _ => False where
  number := fun _ he => he.elim
  missing := fun _ _ => ⟨rfl, rfl⟩

theorem inRow_mod (n : Nat) : InRow ((n % 8 : Nat) : Int) := by
  unfold InRow
  omega

/-- A pair adds its entry to the received ones if it is without errors. -/
theorem filled_storeEntry (h : Filled mag r) (raw : Raw) (entry : Nat × Nat) :
    Filled (storeEntry raw mag entry) fun e => r e ∨ entry.2 = e ∧ goodPair raw entry.1 := by
  by_cases hgood : goodPair raw entry.1
  · rw [storeEntry, if_pos hgood]
    constructor
    · intro e he
      by_cases hentry : e = entry.2
      · subst hentry
        simp only [Function.update_self]
        exact ⟨inRow_mod _, inRow_mod _⟩
      · simp only [Function.update_of_ne hentry]
        exact h.number e (he.resolve_right fun hnew => hentry hnew.1.symm)
    · intro e he
      have hentry : e ≠ entry.2 := fun heq => he (Or.inr ⟨heq.symm, hgood⟩)
      simp only [Function.update_of_ne hentry]
      exact h.missing e fun hr => he (Or.inl hr)
  · rw [storeEntry, if_neg hgood]
    exact h.congr fun e => ⟨Or.inl, fun he => he.resolve_right fun hnew => hgood hnew.2⟩

theorem filled_storeEntries (raw : Raw) (list : List (Nat × Nat)) (h : Filled mag r) :
    Filled (list.foldl (storeEntry raw) mag)
      fun e => r e ∨ ∃ entry ∈ list, entry.2 = e ∧ goodPair raw entry.1 := by
  induction list generalizing mag r with
  | nil => exact h.congr fun e => by simp
  | cons entry list ih =>
    refine (ih (filled_storeEntry h raw entry)).congr fun e => ?_
    simp only [List.mem_cons, exists_eq_or_imp, or_assoc]

theorem foldl_lut {β : Type} (f : Magazine → α → Magazine) (g : Magazine → β)
    (hf : ∀ mag a, g (f mag a) = g mag) (list : List α) (mag : Magazine) :
    g (list.foldl f mag) = g mag := by
  induction list generalizing mag with
  | nil => rfl
  | cons a list ih => exact (ih (f mag a)).trans (hf mag a)

theorem storePopLink_lut (raw : Raw) (first : Nat) (mag : Magazine) (i : Nat) :
    ((storePopLink raw first mag i).popLut, (storePopLink raw first mag i).drcsLut) =
      (mag.popLut, mag.drcsLut) := by
  unfold storePopLink
  dsimp only
  split <;> rfl

theorem storeDrcsLink_lut (raw : Raw) (first : Nat) (mag : Magazine) (i : Nat) :
    ((storeDrcsLink raw first mag i).popLut, (storeDrcsLink raw first mag i).drcsLut) =
      (mag.popLut, mag.drcsLut) := by
  unfold storeDrcsLink
  dsimp only
  split <;> rfl

/-- The links of a packet leave the tables of numbers as they are. -/
theorem parseMot_lut (mag : Magazine) (raw : Raw) (packet : Nat) (h : 14 < packet) :
    ((parseMot mag raw packet).popLut, (parseMot mag raw packet).drcsLut) =
      (mag.popLut, mag.drcsLut) := by
  have hrow : ¬ (1 ≤ packet ∧ packet ≤ 14) := by omega
  have hpop (first : Nat) :=
    foldl_lut (storePopLink raw first) (fun mag => (mag.popLut, mag.drcsLut))
      (storePopLink_lut raw first) (List.range 4) mag
  have hdrcs (first : Nat) :=
    foldl_lut (storeDrcsLink raw first) (fun mag => (mag.popLut, mag.drcsLut))
      (storeDrcsLink_lut raw first) (List.range 8) mag
  rw [parseMot, if_neg hrow]
  split
  · exact hpop _
  · split
    · exact hpop _
    · split
      · exact hdrcs _
      · rfl

theorem entries_of_gt {packet : Nat} (h : 14 < packet) : entries packet = [] := by
  rw [entries, if_neg (by omega), if_neg (by omega)]

/-- What a packet of the table adds to the received entries. -/
theorem filled_parseMot (h : Filled mag r) (raw : Raw) (packet : Nat) :
    Filled (parseMot mag raw packet)
      fun e => r e ∨ ∃ entry ∈ entries packet, entry.2 = e ∧ goodPair raw entry.1 := by
  by_cases hrow : 1 ≤ packet ∧ packet ≤ 14
  · rw [parseMot, if_pos hrow]
    exact filled_storeEntries raw (entries packet) h
  · by_cases hzero : packet = 0
    · subst hzero
      exact h.congr fun e => by simp [entries]
    · have hgt : 14 < packet := by omega
      have hlut := parseMot_lut mag raw packet hgt
      simp only [Prod.mk.injEq] at hlut
      refine (h.of_lut hlut.1 hlut.2).congr fun e => ?_
      simp [entries_of_gt hgt]

def received (packets : List MotPacket) (m e : Nat) : Prop :=
  ∃ p ∈ packets, p.magazine = m ∧ ∃ entry ∈ entries p.packet, entry.2 = e ∧ goodPair p.raw entry.1

theorem Received_iff (packets : List MotPacket) (pgno : Nat) :
    Received packets pgno ↔ received packets (pgno / 256) (pgno % 256) := by
  simp [Received, received, holds]

/-- After any packets, the entries which were received are those with a number. -/
theorem filled_decode (packets : List MotPacket) (m : Nat) :
    Filled ((decode packets).magazines m) (received packets m) := by
  induction packets using List.reverseRecOn with
  | nil => exact filled_init.congr fun e => by simp [received]
  | append_singleton packets p ih =>
    rw [decode, List.foldl_append]
    by_cases hm : m = p.magazine
    · subst hm
      have hstep := filled_parseMot ih p.raw p.packet
      simp only [List.foldl_cons, List.foldl_nil, decodePacket, Function.update_self]
      refine hstep.congr fun e => ?_
      simp [received, or_and_right, exists_or]
    · simp only [List.foldl_cons, List.foldl_nil, decodePacket, Function.update_of_ne hm]
      refine ih.congr fun e => ?_
      have hne : p.magazine ≠ m := fun heq => hm heq.symm
      simp [received, or_and_right, exists_or, hne]

theorem element_of_inRow (table : Nat → α) (row : Nat) {i : Int} (h : InRow i)
    (use : α → Selected) : element table row i use = use (table (8 * row + i.toNat)) :=
  if_pos h

theorem live_ne_outside (pgno i : Int) : live pgno ≠ .outside i := by
  unfold live
  split <;> simp

theorem selectLink_ne_outside (table : Nat → α) (pgno : α → Int) (maxLevel : WstLevel) {i : Int}
    (h : InRow i) (j : Int) : selectLink table pgno maxLevel i ≠ .outside j := by
  simp only [selectLink, element_of_inRow _ _ h]
  split
  · exact live_ne_outside _ _
  · split
    · exact live_ne_outside _ _
    · simp

/-- The number of an entry which was not received is outside of the links. -/
theorem selectLink_missing (table : Nat → α) (pgno : α → Int) (maxLevel : WstLevel) :
    selectLink table pgno maxLevel (-1) = .outside (-1) := by
  simp [selectLink, element]

def lutNumber (mag : Magazine) (vtp : Page) : Lookup → Int
  | .defaultObject => mag.popLut (vtp.pgno % 256)
  | .publicObject => mag.popLut (vtp.pgno % 256)
  | .normalDrcs => mag.drcsLut (vtp.pgno % 256)

theorem Filled.lutNumber_inRow (h : Filled mag r) {vtp : Page} (hr : r (vtp.pgno % 256))
    (l : Lookup) : InRow (lutNumber mag vtp l) := by
  obtain ⟨hpop, hdrcs⟩ := h.number _ hr
  cases l
  · exact hpop
  · exact hpop
  · exact hdrcs

theorem Filled.lutNumber_missing (h : Filled mag r) {vtp : Page} (hr : ¬ r (vtp.pgno % 256))
    (l : Lookup) : lutNumber mag vtp l = -1 := by
  obtain ⟨hpop, hdrcs⟩ := h.missing _ hr
  cases l
  · exact hpop
  · exact hpop
  · exact hdrcs

section Select
variable {vbi : Decoder} {maxLevel : WstLevel} {vtp : Page} {l : Lookup}

/-- A link of the page is used without a look-up. -/
theorem select_of_not_consulted (h : ¬ Consulted vtp l) :
    select vbi maxLevel vtp l = .page vtp.link25 := by
  cases l with
  | defaultObject => exact (h trivial).elim
  | publicObject => exact if_neg h
  | normalDrcs => exact if_neg h

/-- A look-up with a number of the tables stays inside of them. -/
theorem select_ne_outside (h : InRow (lutNumber (magazineOf vbi maxLevel vtp.pgno) vtp l))
    (j : Int) : select vbi maxLevel vtp l ≠ .outside j := by
  cases l with
  | defaultObject =>
    simp only [select, defaultObjectLink]
    split
    · simp
    · exact selectLink_ne_outside _ _ _ h _
  | publicObject =>
    simp only [select, publicObjectLink]
    split
    · split
      · simp
      · exact selectLink_ne_outside _ _ _ h _
    · simp
  | normalDrcs =>
    simp only [select, normalDrcsLink]
    split
    · split
      · simp
      · exact selectLink_ne_outside _ _ _ h _
    · simp

/-- A look-up of an entry which was not received uses -1 as the index. -/
theorem select_missing (hc : Consulted vtp l)
    (h : lutNumber (magazineOf vbi maxLevel vtp.pgno) vtp l = -1) :
    select vbi maxLevel vtp l = .outside (-1) := by
  cases l with
  | defaultObject =>
    have hlut : (magazineOf vbi maxLevel vtp.pgno).popLut (vtp.pgno % 256) = -1 := h
    simp [select, defaultObjectLink, hlut, selectLink_missing]
  | publicObject =>
    have hlut : (magazineOf vbi maxLevel vtp.pgno).popLut (vtp.pgno % 256) = -1 := h
    have hlink : noPage vtp.link25 = true := hc
    simp [select, publicObjectLink, hlink, hlut, selectLink_missing]
  | normalDrcs =>
    have hlut : (magazineOf vbi maxLevel vtp.pgno).drcsLut (vtp.pgno % 256) = -1 := h
    have hlink : noPage vtp.link25 = true := hc
    simp [select, normalDrcsLink, hlink, hlut, selectLink_missing]

end Select

theorem magazineOf_eq (vbi : Decoder) {maxLevel : WstLevel} (h : 2 ≤ maxLevel.rank)
    (pgno : Nat) : magazineOf vbi maxLevel pgno = vbi.magazines (pgno / 256) :=
  if_neg (by omega)

/-- After any packets and for any page, the look-ups at Levels 2.5 and 3.5 are valid
if and only if the entry of the page was received when it is looked up. -/
theorem lookups_valid_iff (packets : List MotPacket) (maxLevel : WstLevel)
    (hlevel : 2 ≤ maxLevel.rank) (vtp : Page) (l : Lookup) :
    Valid packets maxLevel vtp l ↔ (Consulted vtp l → Received packets vtp.pgno) := by
  have hmag := magazineOf_eq (decode packets) hlevel vtp.pgno
  have hfilled := filled_decode packets (vtp.pgno / 256)
  rw [← hmag] at hfilled
  constructor
  · intro hvalid hc
    by_contra hmissing
    rw [Received_iff] at hmissing
    exact hvalid.1 (-1) (select_missing hc (hfilled.lutNumber_missing hmissing l))
  · intro hreceived
    constructor
    · intro j
      by_cases hc : Consulted vtp l
      · have hr := (Received_iff packets vtp.pgno).1 (hreceived hc)
        exact select_ne_outside (hfilled.lutNumber_inRow hr l) j
      · simp [select_of_not_consulted hc]
    · exact fun hc hmissing => (hmissing (hreceived hc)).elim

def page100 : Page := ⟨0x100, -1⟩

/-- A first packet of the table of magazine 1, with number 1 in all its pairs. -/
def firstPacket : MotPacket := ⟨1, 1, fun _ => 0x02⟩

theorem lookups_valid_page100 :
    2 ≤ WstLevel.level2p5.rank ∧ Received [firstPacket] page100.pgno ∧
      Valid [firstPacket] .level2p5 page100 .defaultObject := by
  have hreceived : Received [firstPacket] page100.pgno :=
    ⟨firstPacket, List.mem_singleton_self _, by decide⟩
  exact ⟨by decide, hreceived,
    (lookups_valid_iff [firstPacket] .level2p5 (by decide) page100 .defaultObject).2
      fun _ => hreceived⟩

/-- Before any packet of the table the default objects of page 100 are taken from
element -1 of the links. -/
theorem defaultObject_outside :
    select (decode []) .level2p5 page100 .defaultObject = .outside (-1) ∧
      ¬ Valid [] .level2p5 page100 .defaultObject := by
  have houtside : select (decode []) .level2p5 page100 .defaultObject = .outside (-1) := by
    decide
  exact ⟨houtside, fun hvalid => hvalid.1 (-1) houtside⟩

end MotLinks
